import SrtBridge.Bridge.Polling

/-! The timers of the loop: how often it sweeps the groups and checks for stranded members, and how
long it sleeps when there is nothing to do. -/

namespace SrtBridge

open General

namespace Bridge

namespace IoThread

section Timers

variable {lib : Libsrt} {f : Finds} {t : IoThread}

/-- The turn sweeps the groups: it takes a step that reads one if it is live. -/
def sweeps (lib : Libsrt) (t : IoThread) (f : Finds) : Bool := t.takesStep (IoStep.isSweep true) lib f

/-- The turn looks for stranded members. -/
def checks (lib : Libsrt) (t : IoThread) (f : Finds) : Bool := t.takesStep IoStep.isCheck lib f

/-- The thread as it goes on when the turn's commands are done, if it does. -/
def goesOn (lib : Libsrt) (t : IoThread) (f : Finds) : Bool :=
  t.bridge.running && !t.bridge.sockets.keys.isEmpty &&
    ((t.wake lib).drainCommands lib f).bridge.running

/-- The turn takes the idle path. -/
def idles (lib : Libsrt) (t : IoThread) (f : Finds) : Bool :=
  t.goesOn lib f && ((t.wake lib).drainCommands lib f).bridge.idle

def fails (lib : Libsrt) (t : IoThread) (f : Finds) : Bool :=
  t.goesOn lib f && !((t.wake lib).drainCommands lib f).bridge.idle && f.events.isNone

/-- The turn does no work. -/
def naps (lib : Libsrt) (t : IoThread) (f : Finds) : Bool := t.idles lib f || t.fails lib f

theorem setSweep (lib : Libsrt) (u : IoThread) (f : Finds) (connected : Bool) :
    (u.sweepGroups lib f connected).lastGroupSweep =
      if connected ∧ groupRecvSweep ≤ u.bridge.clock - u.lastGroupSweep then u.bridge.clock
      else u.lastGroupSweep := by
  unfold sweepGroups
  split_ifs <;> rfl

theorem setCheck (lib : Libsrt) (u : IoThread) (f : Finds) :
    (u.checkStranded lib f).lastStrandedCheck =
      if strandedCheck ≤ u.bridge.clock - u.lastStrandedCheck then u.bridge.clock else u.lastStrandedCheck := by
  unfold checkStranded
  split_ifs <;> rfl

theorem decide_set {period now last : ℕ} {p : Prop} [Decidable p] (hpos : 0 < period) (hp : p → period ≤ now - last) :
    decide p = decide ((if p then now else last) ≠ last) := by
  by_cases h : p
  · have hne : now ≠ last := by
      have := hp h
      omega
    simp [h, hne]
  · simp [h]

/-- A turn sweeps the groups exactly if it sets the timer. -/
theorem sweeps_eq (lib : Libsrt) (t : IoThread) (f : Finds) :
    t.sweeps lib f = decide ((t.turn lib f).lastGroupSweep ≠ t.lastGroupSweep) := by
  have hk (s : IoStep) (hs : s.isSweep true = true) : s.isTimed = true := by
    cases s <;> first | rfl | cases hs
  rw [sweeps]
  cases h : t.isActive lib f with
  | false => rw [takesStep_inactive h hk, (turn_inactive h).sweep]; simp
  | true =>
    obtain ⟨connected, u, hu, hturn, hku, hkv, hkw, htakes⟩ := takesStep_active h hk
    obtain ⟨-, -, hpolled, -⟩ := pollStates_timers lib ((u.sweepGroups lib f connected).checkStranded lib f) f
    have hcheck := (checkStranded_ticks lib (u.sweepGroups lib f connected) f).1.sweep
    rw [htakes, any_due hku (b := true) fun _ => rfl, any_due hkv (b := false) fun _ => rfl,
      any_due hkw (b := false) fun _ => rfl, hturn, hpolled, hcheck, ← hu.sweep]
    simp only [Bool.and_true, Bool.and_false, Bool.or_false]
    rw [setSweep]
    exact decide_set (by decide) And.right

/-- A turn looks for stranded members exactly if it sets the timer. -/
theorem checks_eq (lib : Libsrt) (t : IoThread) (f : Finds) :
    t.checks lib f = decide ((t.turn lib f).lastStrandedCheck ≠ t.lastStrandedCheck) := by
  have hk (s : IoStep) (hs : s.isCheck = true) : s.isTimed = true := by
    cases s <;> first | rfl | cases hs
  rw [checks]
  cases h : t.isActive lib f with
  | false => rw [takesStep_inactive h hk, (turn_inactive h).check]; simp
  | true =>
    obtain ⟨connected, u, hu, hturn, hku, hkv, hkw, htakes⟩ := takesStep_active h hk
    obtain ⟨-, -, -, hpolled, -⟩ := pollStates_timers lib ((u.sweepGroups lib f connected).checkStranded lib f) f
    have hsweep : (u.sweepGroups lib f connected).lastStrandedCheck = u.lastStrandedCheck :=
      (sweepGroups_ticks lib u f connected).1.check
    rw [htakes, any_due hku (b := false) fun _ => rfl, any_due hkv (b := true) fun _ => rfl,
      any_due hkw (b := false) fun _ => rfl, hturn, hpolled, ← hu.check, ← hsweep]
    simp only [Bool.and_true, Bool.and_false, Bool.or_false, Bool.false_or]
    rw [setCheck]
    exact decide_set (by decide) id

theorem Ticks.grows {period last last' now : ℕ} (h : Ticks period last last' now) :
    last + period * (decide (last' ≠ last)).toNat ≤ last' := by
  rcases h with rfl | ⟨hdue, -⟩
  · simp
  · have hone : period * (decide (last' ≠ last)).toNat ≤ period :=
      (Nat.mul_le_mul_left _ (Bool.toNat_le _)).trans (Nat.mul_one _).le
    have hle : last + period ≤ last' := hdue
    omega

theorem sleeps_activePath (lib : Libsrt) (t : IoThread) (f : Finds)
    (events : List (SocketId × EpollFlags)) : (t.activePath lib f events).sleeps = t.sleeps := by
  have hdrain (t : IoThread) (connected : Bool) : (t.drainSends lib f connected).sleeps = t.sleeps := by
    unfold drainSends
    split_ifs <;> rfl
  have hsweep (t : IoThread) (connected : Bool) : (t.sweepGroups lib f connected).sleeps = t.sleeps := by
    unfold sweepGroups
    split_ifs <;> rfl
  have hcheck (t : IoThread) : (t.checkStranded lib f).sleeps = t.sleeps := by
    unfold checkStranded
    split_ifs <;> rfl
  have hpoll (t : IoThread) : (t.pollStates lib f).sleeps = t.sleeps := by
    unfold pollStates
    split_ifs <;> rfl
  unfold activePath
  rw [hpoll]
  show ((_ : IoThread).checkStranded lib f).sleeps = _
  rw [hcheck, hsweep, hdrain]
  rfl

theorem backOff_sleeps (n : ℕ) : fromMillis 2 ≤ fromMillis (1 <<< min (n + 1) 7) ∧
    fromMillis (1 <<< min (n + 1) 7) ≤ fromMillis 128 := by
  have hlo : 1 ≤ min (n + 1) 7 := by omega
  have hhi : min (n + 1) 7 ≤ 7 := min_le_right ..
  rw [Nat.one_shiftLeft]
  exact ⟨Nat.mul_le_mul_right _ (Nat.pow_le_pow_right two_pos hlo),
    Nat.mul_le_mul_right _ (Nat.pow_le_pow_right two_pos hhi)⟩

/-- Time only passes in a turn, and the sleep that the one before it ended with first. -/
theorem turn_slept (lib : Libsrt) (t : IoThread) (f : Finds) (hr : t.bridge.running = true) :
    t.bridge.clock + t.sleeps ≤ (t.turn lib f).bridge.clock := by
  have hwake : (t.wake lib).bridge.clock = t.bridge.clock + t.sleeps := rfl
  have hgoOn (t : IoThread) : t.bridge.clock ≤ (t.goOn lib f).bridge.clock := by
    unfold goOn
    split_ifs
    · exact le_rfl
    · exact (run_clock_le ..).trans (run_clock_le ..)
    · cases f.events with
      | none => exact le_rfl
      | some events =>
        exact (beforePoll_timed lib t f events).1.clock.trans (pollStates_timers ..).1
  unfold turn
  rw [if_neg (by simp [hr]), ← hwake]
  dsimp only
  split_ifs
  · exact ((does_waits lib _ _).trans (does_waits lib _ _)).clock
  · exact (does_waits lib _ _).clock.trans (hgoOn _)

theorem turn_sleeps (lib : Libsrt) (t : IoThread) (f : Finds) (hr : t.bridge.running = true) :
    (t.turn lib f).sleeps = if t.idles lib f then fromMillis 100
      else if t.fails lib f then fromMillis (1 <<< min (t.consecutiveEpollErrors + 1) 7) else 0 := by
  have hsockets : (t.wake lib).bridge.sockets = t.bridge.sockets := rfl
  unfold turn idles fails goesOn
  rw [if_neg (by simp [hr])]
  dsimp only
  rw [hsockets, hr]
  cases hb : t.bridge.sockets.keys.isEmpty with
  | true =>
    simp only [if_true, Bool.not_true, Bool.and_false, Bool.false_and, Bool.false_eq_true, if_false]
    rfl
  | false =>
    have hawake : ((t.wake lib).drainCommands lib f).sleeps = 0 := rfl
    have herrors : ((t.wake lib).drainCommands lib f).consecutiveEpollErrors = t.consecutiveEpollErrors := rfl
    generalize (t.wake lib).drainCommands lib f = c at hawake herrors
    rw [if_neg Bool.false_ne_true, goOn]
    cases hc : c.bridge.running with
    | false => simpa using hawake
    | true =>
      cases hi : c.bridge.idle with
      | true =>
        have hsleep : (c.idlePath lib f).sleeps = fromMillis 100 := rfl
        simpa using hsleep
      | false =>
        cases f.events with
        | none => simp [backOff, herrors]
        | some events => simpa using (sleeps_activePath ..).trans hawake

/-- A turn on the idle path ends with a sleep of 100 ms. -/
theorem sleeps_of_idles (h : t.idles lib f = true) : (t.turn lib f).sleeps = fromMillis 100 := by
  have hr : t.bridge.running = true := by
    simp only [idles, goesOn, Bool.and_eq_true] at h
    exact h.1.1.1
  rw [turn_sleeps lib t f hr, if_pos h]

/-- A turn in which epoll fails ends with a sleep that grows with every failure, up to 128 ms. -/
theorem sleeps_of_fails (h : t.fails lib f = true) :
    (t.turn lib f).sleeps = fromMillis (1 <<< min (t.consecutiveEpollErrors + 1) 7) := by
  have hpath : t.bridge.running = true ∧ t.idles lib f = false := by
    simp only [fails, goesOn, Bool.and_eq_true, Bool.not_eq_true'] at h
    exact ⟨h.1.1.1.1, by rw [idles, h.1.2, Bool.and_false]⟩
  rw [turn_sleeps lib t f hpath.1, if_neg (by simp [hpath.2]), if_pos h]

/-- After its commands a turn goes on in one of three ways. -/
theorem goesOn_eq (lib : Libsrt) (t : IoThread) (f : Finds) :
    t.goesOn lib f = (t.isActive lib f || t.idles lib f || t.fails lib f) := by
  unfold isActive idles fails goesOn
  cases hi : ((t.wake lib).drainCommands lib f).bridge.idle <;> cases f.events <;>
    simp [hi, Bool.and_assoc]

theorem turn_naps (lib : Libsrt) (t : IoThread) (f : Finds) :
    t.bridge.clock + t.sleeps + fromMillis 2 * (t.naps lib f).toNat ≤
      (t.turn lib f).bridge.clock + (t.turn lib f).sleeps := by
  cases hr : t.bridge.running with
  | false =>
    have hturn : t.turn lib f = { t with did := [] } := if_pos hr
    rw [hturn]
    simp [naps, idles, fails, goesOn, hr]
  | true =>
    refine Nat.add_le_add (turn_slept lib t f hr) ?_
    rw [naps]
    cases hi : t.idles lib f with
    | true =>
      rw [sleeps_of_idles hi]
      show fromMillis 2 * 1 ≤ fromMillis 100
      decide
    | false =>
      cases hf : t.fails lib f with
      | true => simpa [sleeps_of_fails hf] using (backOff_sleeps t.consecutiveEpollErrors).1
      | false => exact Nat.zero_le _

def OnTime (t : IoThread) : Prop :=
  t.lastGroupSweep ≤ t.bridge.clock ∧ t.lastStrandedCheck ≤ t.bridge.clock

theorem turn_onTime (f : Finds) (h : t.OnTime) : (t.turn lib f).OnTime := by
  obtain ⟨hsweep, hcheck⟩ := h
  obtain ⟨hturn, -⟩ := turn_timed lib t f
  have htick {period last last' : ℕ} (h : Ticks period last last' (t.turn lib f).bridge.clock)
      (hlast : last ≤ t.bridge.clock) : last' ≤ (t.turn lib f).bridge.clock := by
    rcases h with rfl | ⟨-, hnow⟩
    · exact hlast.trans hturn.clock
    · exact hnow
  exact ⟨htick hturn.sweep hsweep, htick hturn.check hcheck⟩

variable (lib) in
/-- Over any stretch of any run of the loop: groups are swept and stranded members looked for at most
once every 100 ms, the latter in the first turn of the active path that begins with that time gone by;
and the thread does not spin, as a turn that goes on after its commands but not on the active path is
followed by a sleep, which the next turn begins with: 100 ms on the idle path, and 2 ms at least and
128 ms at most when epoll fails. -/
theorem timers_paced (earlier finds : List Finds) :
    let t := start.turns lib earlier
    let t' := t.turns lib finds
    t.lastGroupSweep + groupRecvSweep * countAlong (turn lib) (sweeps lib) t finds ≤ t'.bridge.clock ∧
      t.lastStrandedCheck + strandedCheck * countAlong (turn lib) (checks lib) t finds ≤ t'.bridge.clock ∧
        (∀ f, t.isActive lib f = true → t.lastStrandedCheck + strandedCheck ≤ t.bridge.clock →
          t.checks lib f = true) ∧
        (∀ f, t.goesOn lib f = (t.isActive lib f || t.idles lib f || t.fails lib f) ∧
          (t.idles lib f = true → (t.turn lib f).sleeps = fromMillis 100) ∧
          (t.fails lib f = true → fromMillis 2 ≤ (t.turn lib f).sleeps ∧
            (t.turn lib f).sleeps ≤ fromMillis 128)) ∧
        (∀ f, t.bridge.running = true → t.bridge.clock + t.sleeps ≤ (t.turn lib f).bridge.clock) ∧
          t.bridge.clock + t.sleeps + fromMillis 2 * countAlong (turn lib) (naps lib) t finds ≤
            t'.bridge.clock + t'.sleeps := by
  intro t t'
  have honTime (finds : List Finds) {t : IoThread} (h : t.OnTime) : (t.turns lib finds).OnTime := by
    induction finds generalizing t with
    | nil => exact h
    | cons f finds ih => exact ih (turn_onTime f h)
  have ht : t.OnTime := honTime earlier ⟨le_rfl, le_rfl⟩
  obtain ⟨hsweep, hcheck⟩ : t'.OnTime := honTime finds ht
  refine ⟨?_, ?_, fun f hactive hlate => ?_, fun f => ⟨goesOn_eq lib t f, sleeps_of_idles, fun h => ?_⟩,
    turn_slept lib t, ?_⟩
  · refine (countAlong_grows finds fun t f => ?_).trans hsweep
    rw [sweeps_eq]
    exact (turn_timed lib t f).1.sweep.grows
  · refine (countAlong_grows finds fun t f => ?_).trans hcheck
    rw [checks_eq]
    exact (turn_timed lib t f).1.check.grows
  · have hpos : 0 < strandedCheck := by decide
    have hset := (turn_timed lib t f).2 hactive (Nat.le_sub_of_add_le' hlate)
    have hlt : t.lastStrandedCheck < (t.turn lib f).lastStrandedCheck :=
      ((Nat.lt_add_of_pos_right hpos).trans_le hlate).trans_le hset
    rw [checks_eq]
    exact decide_eq_true hlt.ne'
  · rw [sleeps_of_fails h]
    exact backOff_sleeps _
  · exact countAlong_grows finds fun t f => turn_naps lib t f

end Timers

end IoThread

end Bridge

end SrtBridge
