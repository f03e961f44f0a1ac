import ProxyTun.Library.Transition
import ProxyTun.Relays.Association

/-!
# The pause between attempts to reach the proxy

`establish_udp_associate` gives up at once within five seconds of the attempt before. The Windows
engine keeps the time of that attempt in 32 bits and compares it with a clock of 64.
-/
namespace ProxyTun.Association.Pacing
open Library Transition

/-- The call is not given up, so that it opens a connection. -/
def GoesOn (a : Attempt) (s : Association.State) : Prop := ¬ a.now - s.lastAttempt < 5000

instance (a : Attempt) (s : Association.State) : Decidable (GoesOn a s) :=
  inferInstanceAs (Decidable (¬ _))

/-- The association with the times of the calls that went on, the latest first. -/
structure State where
  association : Association.State
  went : List Tick
  clock : Tick

inductive Event where
  /-- A call of `establish_udp_associate`. -/
  | call (a : Attempt)
  /-- Anything else that happens to the association. -/
  | other (association : Association.State)

def start (association : Association.State) : State := ⟨association, [], 0⟩

/-- Nothing but a call writes `last_udp_connect_attempt`, and the clock does not go back. -/
def step (s : State) : Event → Option State
  | .call a =>
    if s.clock ≤ a.now then
      some ⟨(establish .windows a s.association).2,
        if GoesOn a s.association then a.now :: s.went else s.went, a.now⟩
    else none
  | .other association =>
    if association.lastAttempt = s.association.lastAttempt then
      some { s with association := association }
    else none

/-- Two calls that went on are at least five seconds apart. -/
def Spaced (s : State) : Prop := s.went.Pairwise fun later earlier =>
  earlier.toNat + 5000 ≤ later.toNat

/-- A call five seconds or more after the latest that went on goes on. -/
def Prompt (s : State) : Event → Prop
  | .call a => ∀ latest ∈ s.went.head?, latest.toNat + 5000 ≤ a.now.toNat →
    GoesOn a s.association
  | .other _ => True

/-- The latest call that went on was made before the clock passed 32 bits, or this one comes at
least five seconds later. -/
def FitsClock (s : State) : Event → Prop
  | .call a => ∀ latest ∈ s.went.head?,
    latest.toNat < 2 ^ 32 ∨ latest.toNat + 5000 ≤ a.now.toNat
  | .other _ => True

/-- The variable holds what 32 bits keep of the latest time. -/
structure Kept (s : State) : Prop where
  lastAttempt_eq : s.association.lastAttempt = attemptTime .windows (s.went.head?.getD 0)
  le_clock : ∀ t ∈ s.went, t ≤ s.clock

variable {s t : State} {a : Attempt}

@[simp] theorem lastAttempt_close (v : SocketVar) (s : Association.State) :
    (s.close v).lastAttempt = s.lastAttempt := rfl

@[simp] theorem lastAttempt_acquire (v : SocketVar) (ok : Bool) (s : Association.State) :
    (s.acquire v ok).lastAttempt = s.lastAttempt := rfl

@[simp] theorem lastAttempt_move (v w : SocketVar) (s : Association.State) :
    (s.move v w).lastAttempt = s.lastAttempt := rfl

@[simp] theorem lastAttempt_use (v : SocketVar) (s : Association.State) :
    (s.use v).lastAttempt = s.lastAttempt := rfl

theorem lastAttempt_connectControl (a : Attempt) (s : Association.State) :
    (connectControl .windows a s).2.lastAttempt =
      if GoesOn a s then attemptTime .windows a.now else s.lastAttempt := by
  unfold connectControl
  by_cases hgoes : GoesOn a s
  · have hlate : ¬ a.now - s.lastAttempt < 5000 := hgoes
    rw [if_pos hgoes, if_neg hlate]
    simp only
    split_ifs <;> simp
  · rw [if_neg hgoes, if_pos (not_not.mp hgoes)]

/-- A call that goes on leaves its time, and a call that is given up changes nothing. -/
theorem lastAttempt_establish (a : Attempt) (s : Association.State) :
    (establish .windows a s).2.lastAttempt =
      if GoesOn a s then attemptTime .windows a.now else s.lastAttempt := by
  rw [← lastAttempt_connectControl]
  unfold establish
  simp only
  split_ifs <;> simp

theorem establish_of_not_goesOn {s : Association.State} (h : ¬ GoesOn a s) :
    establish .windows a s = (false, s) := by
  have hcontrol : connectControl .windows a s = (false, s) := if_pos (not_not.mp h)
  simp [establish, hcontrol]

theorem toNat_attemptTime (time : Tick) :
    (attemptTime .windows time).toNat = time.toNat % 2 ^ 32 := by
  change ((time.setWidth 32).setWidth 64).toNat = _
  rw [BitVec.toNat_setWidth, BitVec.toNat_setWidth]
  omega

theorem step_cases {e : Event} (h : step s e = some t) :
    (∃ a, e = .call a ∧ s.clock ≤ a.now ∧ GoesOn a s.association ∧
      t = ⟨(establish .windows a s.association).2, a.now :: s.went, a.now⟩) ∨
    (∃ a, e = .call a ∧ s.clock ≤ a.now ∧ ¬ GoesOn a s.association ∧
      t = ⟨s.association, s.went, a.now⟩) ∨
    ∃ association, e = .other association ∧
      association.lastAttempt = s.association.lastAttempt ∧
      t = { s with association := association } := by
  cases e with
  | call a =>
    simp only [step, Option.ite_none_right_eq_some, Option.some.injEq] at h
    obtain ⟨hclock, rfl⟩ := h
    by_cases hgoes : GoesOn a s.association
    · exact .inl ⟨a, rfl, hclock, hgoes, by rw [if_pos hgoes]⟩
    · exact .inr (.inl ⟨a, rfl, hclock, hgoes, by
        rw [if_neg hgoes, establish_of_not_goesOn hgoes]⟩)
  | other association =>
    simp only [step, Option.ite_none_right_eq_some, Option.some.injEq] at h
    exact .inr (.inr ⟨association, rfl, h.1, h.2.symm⟩)

theorem Kept.start {association : Association.State} (h : association.lastAttempt = 0) :
    Kept (start association) where
  lastAttempt_eq := h
  le_clock _ htime := absurd htime List.not_mem_nil

theorem Kept.step {e : Event} (hs : Kept s) (h : step s e = some t) : Kept t := by
  obtain ⟨a, rfl, hclock, hgoes, rfl⟩ | ⟨a, rfl, hclock, -, rfl⟩ | ⟨association, rfl, hlast, rfl⟩ :=
    step_cases h
  · constructor
    · simp only [lastAttempt_establish, if_pos hgoes, List.head?_cons, Option.getD_some]
    · intro time htime
      rcases List.mem_cons.mp htime with rfl | htime
      · exact BitVec.le_refl _
      · exact BitVec.le_trans (hs.le_clock time htime) hclock
  · exact ⟨hs.lastAttempt_eq, fun time htime => BitVec.le_trans (hs.le_clock time htime) hclock⟩
  · exact ⟨hlast.trans hs.lastAttempt_eq, hs.le_clock⟩

/-- The guard counts the five seconds from what 32 bits keep of the latest time. -/
theorem goesOn_iff (hs : Kept s) (hclock : s.clock ≤ a.now) :
    GoesOn a s.association ↔
      (s.went.head?.getD 0).toNat % 2 ^ 32 + 5000 ≤ a.now.toNat := by
  have hle : (s.went.head?.getD 0).toNat ≤ a.now.toNat := by
    cases hwent : s.went with
    | nil => exact Nat.zero_le _
    | cons latest earlier =>
      have hlatest : latest ≤ s.clock := hs.le_clock latest (by simp [hwent])
      exact BitVec.le_trans hlatest hclock
  have hmod := Nat.mod_le (s.went.head?.getD 0).toNat (2 ^ 32)
  have hage : (a.now - s.association.lastAttempt).toNat =
      a.now.toNat - (s.went.head?.getD 0).toNat % 2 ^ 32 := by
    rw [hs.lastAttempt_eq, BitVec.toNat_sub, toNat_attemptTime]
    have hbound := a.now.isLt
    omega
  change ¬ (a.now - s.association.lastAttempt).toNat < 5000 ↔ _
  omega

/-- Whatever the clock, a call late enough goes on. -/
theorem prompt_of_kept {e : Event} (hs : Kept s) (h : step s e = some t) : Prompt s e := by
  obtain ⟨a, rfl, -, hgoes, -⟩ | ⟨a, rfl, hclock, -⟩ | ⟨association, rfl, -⟩ := step_cases h
  · exact fun _ _ _ => hgoes
  · intro latest hlatest hlate
    have hhead : s.went.head? = some latest := hlatest
    have hmod := Nat.mod_le latest.toNat (2 ^ 32)
    rw [goesOn_iff hs hclock, hhead, Option.getD_some]
    omega
  · trivial

/-- A call that goes on is late enough for the latest exactly where it fits the clock, and one
that is given up fits it. -/
theorem fitsClock_call_iff (hs : Kept s) (hclock : s.clock ≤ a.now) :
    FitsClock s (.call a) ↔ ∀ latest ∈ s.went.head?, GoesOn a s.association →
      latest.toNat + 5000 ≤ a.now.toNat := by
  have hgoes := goesOn_iff hs hclock
  constructor
  · intro hfits latest hlatest hgo
    have hhead : s.went.head? = some latest := hlatest
    rw [hgoes, hhead, Option.getD_some] at hgo
    have hlow := hfits latest hlatest
    omega
  · intro hlate latest hlatest
    have hhead : s.went.head? = some latest := hlatest
    have hle : latest.toNat ≤ a.now.toNat :=
      BitVec.le_trans (hs.le_clock latest (List.mem_of_mem_head? hlatest)) hclock
    have hgo := hlate latest hlatest
    rw [hgoes, hhead, Option.getD_some] at hgo
    omega

/-- A step keeps the calls that went on apart exactly where it fits the clock. -/
theorem spaced_step_iff {e : Event} (hs : Kept s) (h : step s e = some t) :
    Spaced t ↔ Spaced s ∧ FitsClock s e := by
  obtain ⟨a, rfl, hclock, hgoes, rfl⟩ | ⟨a, rfl, hclock, hgoes, rfl⟩ | ⟨association, rfl, -, rfl⟩ :=
    step_cases h
  · rw [Spaced, List.pairwise_cons, and_comm]
    apply and_congr_right
    intro hspaced
    rw [fitsClock_call_iff hs hclock]
    cases hwent : s.went with
    | nil => simp
    | cons latest earlier =>
      rw [hwent, List.pairwise_cons] at hspaced
      constructor
      · rintro hall _ hlatest -
        rw [← Option.some.inj hlatest]
        exact hall latest List.mem_cons_self
      · intro hlate time htime
        have hfirst := hlate latest rfl hgoes
        rcases List.mem_cons.mp htime with rfl | htime
        · exact hfirst
        · exact (hspaced.1 time htime).trans ((Nat.le_add_right _ _).trans hfirst)
  · rw [fitsClock_call_iff hs hclock]
    exact (and_iff_left fun _ _ hgo => absurd hgo hgoes).symm
  · exact (and_iff_left trivial).symm

/-- In every run calls late enough go on, and those that go on are apart exactly in the runs that
fit the clock. -/
theorem establish_spaced_iff {association : Association.State} {events : List Event}
    (hstart : association.lastAttempt = 0) (hrun : run step (start association) events = some s) :
    (Spaced s ∧ EachStep step (fun s e _ => Prompt s e) (start association) events) ↔
      Guarded step FitsClock (start association) events := by
  have hkept : Kept (start association) := .start hstart
  have hspaced : Spaced (start association) := List.Pairwise.nil
  have hprompt : EachStep step (fun s e _ => Prompt s e) (start association) events := by
    apply (eachStep_iff_guarded (G := fun _ _ => True) (H := fun _ _ => True) (I := Kept)
      _ _ hrun (guarded_true _ _) hkept).mpr (guarded_true _ _)
    · exact fun s e t hs _ h => iff_of_true (prompt_of_kept hs h) trivial
    · exact fun s e t hs _ h _ => hs.step h
  have hrecorded : Spaced s ↔ Spaced (start association) ∧
      Guarded step FitsClock (start association) events :=
    guarded_iff_recorded (fun s e t hs h => hs.step h) (fun s e t hs h => spaced_step_iff hs h)
      hrun hkept
  rw [and_iff_left hprompt, hrecorded]
  exact and_iff_right hspaced

/-- An attempt whose socket cannot be made. -/
def failingAttempt (now : Tick) : Attempt := ⟨now, false, false, false, false, false⟩

/-- In the first weeks attempts are apart. -/
theorem establish_spaced_early :
    ∃ s, run step (start (.fresh false 0)) [.call (failingAttempt 6000),
        .call (failingAttempt 9000), .call (failingAttempt 11000)] = some s ∧
      s.went = [11000, 6000] ∧
      Spaced s ∧ EachStep step (fun s e _ => Prompt s e) (start (.fresh false 0))
        [.call (failingAttempt 6000), .call (failingAttempt 9000),
          .call (failingAttempt 11000)] :=
  ⟨_, rfl, rfl, (establish_spaced_iff rfl rfl).mpr
    (.cons (fun _ hlatest => absurd hlatest (by simp [start])) rfl
      (.cons (fun _ hlatest => .inl (by rw [← Option.some.inj hlatest]; decide)) rfl
        (.cons (fun _ hlatest => .inl (by rw [← Option.some.inj hlatest]; decide)) rfl
          trivial)))⟩

/-- After 2 ^ 32 milliseconds two calls a millisecond apart go on. -/
theorem establish_not_spaced :
    ∃ s, run step (start (.fresh false 0)) [.call (failingAttempt 0x100000000),
        .call (failingAttempt 0x100000001)] = some s ∧
      s.went = [0x100000001, 0x100000000] ∧ ¬ Spaced s := by
  refine ⟨_, rfl, rfl, ?_⟩
  unfold Spaced
  decide

end ProxyTun.Association.Pacing
