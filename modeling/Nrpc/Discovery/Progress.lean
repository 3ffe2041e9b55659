import Nrpc.Discovery.Pause
/-!
# When a sync can come to its end

`SyncServers` sends on a channel without a buffer, twice, and nobody but
the watcher receives from it. So a call comes to its end only as long as the
watcher does: a watcher in its select or in its pause receives, one that is
elsewhere receives if it finds `running` set when it is back at the head of
its loop, and one that has left its loop never does again. A call under way
can return exactly in the first two cases (`sync_returns_iff`). Before
`Shutdown` these are all there are. Behind it the watcher may be gone before
the calls are, and then they are blocked for good, the ticker's and that of
a lease being renewed alike.

In the other direction a paused watcher waits for a call to send false, and
there always is one that can.
-/

namespace Nrpc

namespace Discovery

namespace Handshake

variable {s s' : State} {a : Action} {i j : ℕ}

/-! ## The property -/

/-- **The watcher receives now or later.** -/
def State.Serves (s : State) : Prop :=
  match s.watcher with
  | .selecting | .paused => True
  | .handling _ | .retrying => s.running = true
  | .stopped => False

/-- Some continuation lets the call return. -/
def State.CanReturn (s : State) (i : ℕ) : Prop :=
  ∃ bs s', machine.run s bs = some s' ∧ s'.sync i = .idle

/-- Some continuation lets the watcher out of its pause. -/
def State.CanResume (s : State) : Prop :=
  ∃ bs s', machine.run s bs = some s' ∧ s'.watcher ≠ .paused

/-! ## A watcher that is gone -/

theorem serves_loop_iff : s.loop.Serves ↔ s.running = true := by
  unfold State.loop State.Serves
  cases s.running <;> simp

theorem not_serves_loop (hs : ¬ s.Serves) (hw : s.watcher ≠ .stopped) : ¬ s.loop.Serves := by
  rw [serves_loop_iff]
  intro hrunning
  refine hs ?_
  unfold State.Serves
  split
  · trivial
  · trivial
  · exact hrunning
  · exact hrunning
  · rename_i hstopped
    exact hw hstopped

/-- Without the watcher a call moves on, but does not return: every way out
goes through a handshake. -/
theorem gone_step (hs : ¬ s.Serves) (h : step s a = some s') :
    ¬ s'.Serves ∧ ∀ i, s.sync i ≠ .idle → s'.sync i ≠ .idle := by
  have hwatcher : s.watcher ≠ .selecting ∧ s.watcher ≠ .paused := by
    constructor <;> · intro hw; exact hs (by rw [State.Serves, hw]; trivial)
  have hmove : ∀ (k : ℕ) (pc : SyncPc), pc ≠ .idle → ∀ i, s.sync i ≠ .idle →
      (s.move k pc).sync i ≠ .idle := by
    intro k pc hpc i hi
    by_cases hik : i = k
    · subst hik
      simpa [State.move] using hpc
    · simpa [State.move, hik] using hi
  cases a with
  | call k =>
    simp only [step] at h
    split at h
    · obtain rfl := Option.some.inj h
      exact ⟨hs, hmove k _ (by decide)⟩
    · cases h
  | handshake k =>
    simp only [step] at h
    rw [if_neg (by tauto)] at h
    cases h
  | finish k =>
    simp only [step] at h
    split at h
    · obtain rfl := Option.some.inj h
      exact ⟨hs, hmove k _ (by decide)⟩
    · cases h
  | response _ | died =>
    simp only [step] at h
    rw [if_neg hwatcher.1] at h
    cases h
  | stop =>
    simp only [step] at h
    rw [if_neg (fun hw => hwatcher.1 hw.1)] at h
    cases h
  | event =>
    simp only [step] at h
    split at h
    · rename_i left hw
      obtain rfl := Option.some.inj h
      rw [State.Serves, hw] at hs
      exact ⟨hs, fun _ hi => hi⟩
    · cases h
  | handled | retried =>
    simp only [step] at h
    split at h
    · rename_i hw
      obtain rfl := Option.some.inj h
      exact ⟨not_serves_loop hs (by rw [hw]; decide), fun _ hi => hi⟩
    · cases h
  | shutdown =>
    simp only [step] at h
    split at h
    · cases h
    · obtain rfl := Option.some.inj h
      refine ⟨?_, fun _ hi => hi⟩
      intro hserves
      unfold State.Serves at hserves
      split at hserves
      · rename_i hw
        exact hwatcher.1 hw
      · rename_i hw
        exact hwatcher.2 hw
      · cases hserves
      · cases hserves
      · exact hserves

/-- **A call that is under way when the watcher is gone never returns.** -/
theorem not_canReturn_of_gone (hs : ¬ s.Serves) (hi : s.sync i ≠ .idle) : ¬ s.CanReturn i := by
  rintro ⟨bs, s', hrun, hidle⟩
  have hgone : ¬ s'.Serves ∧ s'.sync i ≠ .idle := by
    refine Machine.run_invariant_of_step (I := fun s => ¬ s.Serves ∧ s.sync i ≠ .idle) ?_
      ⟨hs, hi⟩ hrun
    rintro s a s' ⟨hs, hi⟩ h
    obtain ⟨hs', hmoved⟩ := gone_step hs h
    exact ⟨hs', hmoved i hi⟩
  exact hgone.2 hidle

/-! ## A watcher that serves -/

/-- A step in front of a continuation. -/
theorem CanReturn.of_step (h : step s a = some s') (hs' : s'.CanReturn i) : s.CanReturn i := by
  obtain ⟨bs, t, hrest, ht⟩ := hs'
  exact ⟨a :: bs, t, Machine.run_cons_eq_some_iff.2 ⟨s', h, hrest⟩, ht⟩

/-- The watcher receives from the channel. -/
def State.Receives (s : State) : Prop := s.watcher = .selecting ∨ s.watcher = .paused

theorem step_handshake_true (hs : s.Receives) (hi : s.sync i = .sendingTrue) :
    step s (.handshake i) = some ((s.move i .working).receive true) := by
  unfold State.Receives at hs
  simp only [step]
  rw [if_pos hs, hi]

theorem step_handshake_false (hs : s.Receives) (hi : s.sync i = .sendingFalse) :
    step s (.handshake i) = some ((s.move i .idle).receive false) := by
  unfold State.Receives at hs
  simp only [step]
  rw [if_pos hs, hi]

/-- While the watcher receives, a call gets through both of its sends. -/
theorem canReturn_of_receives (hs : s.Receives) : s.CanReturn i := by
  have hfalse : ∀ t : State, t.Receives → t.sync i = .sendingFalse → t.CanReturn i := by
    intro t ht hi
    exact CanReturn.of_step (step_handshake_false ht hi)
      ⟨[], _, rfl, by simp [State.receive, State.loop, State.move]⟩
  have hworking : ∀ t : State, t.Receives → t.sync i = .working → t.CanReturn i := by
    intro t ht hi
    have hfinish : step t (.finish i) = some (t.move i .sendingFalse) := by
      simp only [step]
      rw [if_pos hi]
    exact CanReturn.of_step hfinish (hfalse _ ht (by simp [State.move]))
  cases hi : s.sync i with
  | idle => exact ⟨[], s, rfl, hi⟩
  | sendingFalse => exact hfalse s hs hi
  | working => exact hworking s hs hi
  | sendingTrue =>
    exact CanReturn.of_step (step_handshake_true hs hi)
      (hworking _ (Or.inr rfl) (by simp [State.receive, State.move]))

theorem receives_loop (hrunning : s.running = true) : s.loop.Receives :=
  Or.inl (by simp [State.loop, hrunning])

/-- The events of a response come to their end, and then the watcher is at
the head of its loop. -/
theorem canReturn_of_handling (hrunning : s.running = true) {left : ℕ}
    (hw : s.watcher = .handling left) : s.CanReturn i := by
  induction left generalizing s with
  | zero =>
    have hhandled : step s .handled = some s.loop := by
      simp only [step]
      rw [if_pos hw]
    exact CanReturn.of_step hhandled (canReturn_of_receives (receives_loop hrunning))
  | succ left ih =>
    have hevent : step s .event = some { s with watcher := .handling left } := by
      simp only [step]
      rw [hw]
    exact CanReturn.of_step hevent (ih (s := { s with watcher := .handling left }) hrunning rfl)

/-- **As long as the watcher serves, every call can return.** -/
theorem canReturn_of_serves (hs : s.Serves) : s.CanReturn i := by
  unfold State.Serves at hs
  split at hs
  · rename_i hw
    exact canReturn_of_receives (Or.inl hw)
  · rename_i hw
    exact canReturn_of_receives (Or.inr hw)
  · rename_i hw
    exact canReturn_of_handling hs hw
  · rename_i hw
    have hretried : step s .retried = some s.loop := by
      simp only [step]
      rw [if_pos hw]
    exact CanReturn.of_step hretried (canReturn_of_receives (receives_loop hs))
  · exact hs.elim

/-! ## What holds along a run -/

/-- **The invariant**: the watcher leaves its loop behind `Shutdown` only,
and while it is paused a call is between its two handshakes. -/
structure Guarded (s : State) : Prop where
  running : s.stopped = false → s.running = true
  stopped : s.watcher = .stopped → s.stopped = true
  paused : s.watcher = .paused → ∃ i, (s.sync i).Active

/-- A watcher that is neither paused nor gone. -/
theorem Guarded.of_watcher (hrunning : s.stopped = false → s.running = true)
    (hstopped : s.watcher ≠ .stopped) (hpaused : s.watcher ≠ .paused) : Guarded s :=
  ⟨hrunning, fun hw => absurd hw hstopped, fun hw => absurd hw hpaused⟩

theorem guarded_init : Guarded .init := .of_watcher (fun _ => rfl) (by decide) (by decide)

/-- The head of the loop: the watcher goes on, or `Shutdown` was called. -/
theorem Guarded.loop (hrunning : s.stopped = false → s.running = true) : Guarded s.loop where
  running := hrunning
  stopped := by
    intro hw
    cases hstopped : s.stopped with
    | true => exact hstopped
    | false =>
      have hgo : s.running = true := hrunning hstopped
      simp [State.loop, hgo] at hw
  paused := by
    intro hw
    unfold State.loop at hw
    cases hgo : s.running <;> simp [hgo] at hw

/-- A move of a call that stays, or comes, between its two handshakes. -/
theorem active_of_move {pc : SyncPc} (h : ∃ k, (s.sync k).Active)
    (hpc : (s.sync i).Active → pc.Active) : ∃ k, ((s.move i pc).sync k).Active := by
  obtain ⟨k, hk⟩ := h
  refine ⟨k, ?_⟩
  by_cases hki : k = i
  · subst hki
    simpa [State.move] using hpc hk
  · simpa [State.move, hki] using hk

theorem guarded_step (hs : Guarded s) (h : step s a = some s') : Guarded s' := by
  cases a with
  | call k =>
    simp only [step] at h
    split at h
    · rename_i hk
      obtain rfl := Option.some.inj h
      refine ⟨hs.running, hs.stopped, fun hw => active_of_move (hs.paused hw) ?_⟩
      rw [hk]
      exact fun hidle => hidle.elim
    · cases h
  | handshake k =>
    simp only [step] at h
    split at h
    · split at h
      · obtain rfl := Option.some.inj h
        refine ⟨hs.running, fun hw => absurd hw (by simp [State.receive]), fun _ => ⟨k, ?_⟩⟩
        simp [State.receive, State.move, SyncPc.Active]
      · obtain rfl := Option.some.inj h
        exact Guarded.loop hs.running
      · cases h
    · cases h
  | finish k =>
    simp only [step] at h
    split at h
    · obtain rfl := Option.some.inj h
      exact ⟨hs.running, hs.stopped, fun hw => active_of_move (hs.paused hw) fun _ => trivial⟩
    · cases h
  | response _ | died =>
    simp only [step] at h
    split at h
    · obtain rfl := Option.some.inj h
      exact .of_watcher hs.running (by simp) (by simp)
    · cases h
  | event =>
    simp only [step] at h
    split at h
    · obtain rfl := Option.some.inj h
      exact .of_watcher hs.running (by simp) (by simp)
    · cases h
  | handled | retried =>
    simp only [step] at h
    split at h
    · obtain rfl := Option.some.inj h
      exact Guarded.loop hs.running
    · cases h
  | shutdown =>
    simp only [step] at h
    split at h
    · cases h
    · obtain rfl := Option.some.inj h
      exact ⟨fun hstopped => absurd hstopped (by simp), fun _ => rfl, hs.paused⟩
  | stop =>
    simp only [step] at h
    split at h
    · rename_i hw
      obtain rfl := Option.some.inj h
      exact ⟨hs.running, fun _ => hw.2, fun hw => absurd hw (by simp)⟩
    · cases h

theorem guarded_run {as : List Action} (hrun : machine.run .init as = some s) : Guarded s :=
  Machine.run_invariant_of_step (fun _ _ _ hs h => guarded_step hs h) guarded_init hrun

/-- Before `Shutdown` the watcher is in its loop, and stays there. -/
theorem Guarded.serves (hs : Guarded s) (hstopped : s.stopped = false) : s.Serves := by
  unfold State.Serves
  split
  · trivial
  · trivial
  · exact hs.running hstopped
  · exact hs.running hstopped
  · rename_i hw
    rw [hs.stopped hw] at hstopped
    cases hstopped

/-- The false of the call that is under way lets the watcher go. -/
theorem canResume_of_active (hw : s.watcher = .paused) (hi : (s.sync i).Active) :
    s.CanResume := by
  have hfalse : ∀ t : State, t.watcher = .paused → t.sync i = .sendingFalse → t.CanResume := by
    intro t ht hi
    refine ⟨[.handshake i], _,
      Machine.run_cons_eq_some_iff.2 ⟨_, step_handshake_false (Or.inr ht) hi, rfl⟩, ?_⟩
    unfold State.receive State.loop
    cases (t.move i .idle).running <;> simp
  cases hpc : s.sync i with
  | idle => rw [hpc] at hi; exact hi.elim
  | sendingTrue => rw [hpc] at hi; exact hi.elim
  | sendingFalse => exact hfalse s hw hpc
  | working =>
    have hstep : machine.step s (.finish i) = some (s.move i .sendingFalse) := if_pos hpc
    obtain ⟨bs, t, hrun, ht⟩ := hfalse (s.move i .sendingFalse) hw (by simp [State.move])
    exact ⟨.finish i :: bs, t, Machine.run_cons_eq_some_iff.2 ⟨_, hstep, hrun⟩, ht⟩

/-- **A sync under way can return exactly as long as the watcher serves**,
which it does up to `Shutdown`; and a paused watcher can always be let go,
by a call that is between its two handshakes. -/
theorem sync_returns_iff (as : List Action) (s : State) (hrun : machine.run .init as = some s) :
    (∀ i, s.sync i ≠ .idle → (s.CanReturn i ↔ s.Serves)) ∧
    (s.stopped = false → s.Serves) ∧
    (s.watcher = .paused → (∃ i, (s.sync i).Active) ∧ s.CanResume) := by
  have hs : Guarded s := guarded_run hrun
  refine ⟨fun i hi => ⟨fun hreturn => ?_, canReturn_of_serves⟩, hs.serves, fun hw => ?_⟩
  · by_contra hgone
    exact not_canReturn_of_gone hgone hi hreturn
  · obtain ⟨i, hi⟩ := hs.paused hw
    exact ⟨⟨i, hi⟩, canResume_of_active hw hi⟩

/-- A call that comes while the watcher is busy gets through, unless
`Shutdown` comes first: then the watcher leaves its loop behind the events,
and the call is left. -/
theorem sync_returns_iff_shutdown :
    (∃ s, machine.run .init [.response 2, .call 0, .event] = some s ∧
      s.sync 0 ≠ .idle ∧ s.CanReturn 0) ∧
    (∃ s, machine.run .init [.response 2, .call 0, .event, .shutdown] = some s ∧
      s.sync 0 ≠ .idle ∧ ¬ s.CanReturn 0) := by
  refine ⟨⟨_, rfl, by decide, ?_⟩, ⟨_, rfl, by decide, ?_⟩⟩
  · have hserves := (sync_returns_iff [.response 2, .call 0, .event] _ rfl).2.1 rfl
    exact ((sync_returns_iff [.response 2, .call 0, .event] _ rfl).1 0 (by decide)).2 hserves
  · rw [(sync_returns_iff [.response 2, .call 0, .event, .shutdown] _ rfl).1 0 (by decide)]
    intro hserves
    exact absurd hserves (by simp [State.Serves])

end Handshake

end Discovery

end Nrpc
