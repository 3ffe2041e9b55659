import Nrpc.Discovery.Model.Handshake
/-!
# When the watcher is paused

The channel carries bare booleans. The watcher leaves its pause at the
first false, whoever sent it, so one call's end lets the watcher go while
another call is still at work (`overlap_of_two_syncs`). If no call begins
while another is under way, the false received is the one of the call that
paused the watcher, and no event is handled during a sync
(`not_overlap_of_alone`).
-/

namespace Nrpc

namespace Discovery

namespace Handshake

variable {s s' : State} {i j : ℕ}

/-- A call between its two handshakes. -/
def SyncPc.Active : SyncPc → Prop
  | .working | .sendingFalse => True
  | _ => False

/-- **Events are handled while a sync is running.** -/
def State.Overlap (s : State) : Prop :=
  (∃ left, s.watcher = .handling left) ∧ ∃ i, (s.sync i).Active

/-- **The condition on a step**: the handshake of a true happens while no
call is between its two handshakes. -/
def Alone (s : State) : Action → Prop
  | .handshake i => s.sync i = .sendingTrue → ∀ j, ¬ (s.sync j).Active
  | _ => True

/-- **The invariant**: one call at most is under way, and while one is the
watcher is paused. -/
structure Held (s : State) : Prop where
  single : ∀ i j, (s.sync i).Active → (s.sync j).Active → i = j
  paused : ∀ i, (s.sync i).Active → s.watcher = .paused

theorem held_init : Held .init where
  single := fun _ _ h => h.elim
  paused := fun _ h => h.elim

theorem active_move {pc : SyncPc} (h : ((s.move i pc).sync j).Active) :
    (j = i ∧ pc.Active) ∨ (j ≠ i ∧ (s.sync j).Active) := by
  by_cases hji : j = i
  · subst hji
    exact Or.inl ⟨rfl, by simpa [State.move] using h⟩
  · exact Or.inr ⟨hji, by simpa [State.move, hji] using h⟩

theorem held_of_none (hnone : ∀ i, ¬ (s.sync i).Active) : Held s :=
  ⟨fun i _ hi => absurd hi (hnone i), fun i hi => absurd hi (hnone i)⟩

/-- A step that brings no call under way and leaves the watcher alone. -/
theorem Held.mono (hs : Held s) (hold : ∀ j, (s'.sync j).Active → (s.sync j).Active)
    (hw : s'.watcher = s.watcher) : Held s' where
  single := fun i j hi hj => hs.single i j (hold i hi) (hold j hj)
  paused := fun i hi => hw.trans (hs.paused i (hold i hi))

/-- A step of the watcher outside its pause: no call is under way, and none
comes to be. -/
theorem Held.of_idle (hs : Held s) (hw : s.watcher ≠ .paused) (hsync : s'.sync = s.sync) :
    Held s' := by
  refine held_of_none ?_
  intro i hi
  rw [hsync] at hi
  exact hw (hs.paused i hi)

/-- The handshake of a true: the caller is the only one under way from here
on, and the watcher pauses. -/
theorem Held.handshake_true (hnone : ∀ j, ¬ (s.sync j).Active) :
    Held ((s.move i .working).receive true) := by
  have honly : ∀ j, ((s.move i .working).sync j).Active → j = i := by
    intro j hj
    rcases active_move hj with ⟨hji, -⟩ | ⟨-, hj⟩
    · exact hji
    · exact absurd hj (hnone j)
  exact ⟨fun j k hj hk => (honly j hj).trans (honly k hk).symm, fun _ _ => rfl⟩

/-- The handshake of a false: it comes from the one call that was under
way. -/
theorem Held.handshake_false (hs : Held s) (hi : s.sync i = .sendingFalse) :
    Held ((s.move i .idle).receive false) := by
  have hactive : (s.sync i).Active := by
    rw [hi]
    trivial
  refine held_of_none ?_
  intro j hj
  have hmoved : ((s.move i .idle).sync j).Active := hj
  rcases active_move hmoved with ⟨-, hj⟩ | ⟨hji, hj⟩
  · exact hj
  · exact hji (hs.single j i hj hactive)

/-- **A step keeps the invariant.** -/
theorem held_step {a : Action} (hs : Held s) (ha : Alone s a) (h : step s a = some s') :
    Held s' := by
  cases a with
  | call i =>
    simp only [step] at h
    split at h
    · obtain rfl := Option.some.inj h
      refine hs.mono ?_ rfl
      intro j hj
      rcases active_move hj with ⟨-, hj⟩ | ⟨-, hj⟩
      · exact hj.elim
      · exact hj
    · cases h
  | handshake i =>
    simp only [step] at h
    split at h
    · split at h
      · rename_i hi
        obtain rfl := Option.some.inj h
        exact Held.handshake_true (ha hi)
      · rename_i hi
        obtain rfl := Option.some.inj h
        exact hs.handshake_false hi
      · cases h
    · cases h
  | finish i =>
    simp only [step] at h
    split at h
    · rename_i hi
      obtain rfl := Option.some.inj h
      refine hs.mono ?_ rfl
      intro j hj
      rcases active_move hj with ⟨rfl, -⟩ | ⟨-, hj⟩
      · rw [hi]
        trivial
      · exact hj
    · cases h
  | response _ | handled | died | retried =>
    -- the watcher is somewhere else than in its pause
    simp only [step] at h
    split at h
    · rename_i hw
      obtain rfl := Option.some.inj h
      exact hs.of_idle (by rw [hw]; decide) rfl
    · cases h
  | event =>
    simp only [step] at h
    split at h
    · rename_i left hw
      obtain rfl := Option.some.inj h
      exact hs.of_idle (by rw [hw]; nofun) rfl
    · cases h
  | shutdown =>
    simp only [step] at h
    split at h
    · cases h
    · obtain rfl := Option.some.inj h
      exact hs.mono (fun _ hj => hj) rfl
  | stop =>
    simp only [step] at h
    split at h
    · rename_i hw
      obtain rfl := Option.some.inj h
      exact hs.of_idle (by rw [hw.1]; decide) rfl
    · cases h

theorem Held.not_overlap (hs : Held s) : ¬ s.Overlap := by
  rintro ⟨⟨left, hw⟩, i, hi⟩
  rw [hs.paused i hi] at hw
  cases hw

/-- **The watcher is paused whenever a sync is running**, in every state of
every run in which a true is received only while no call is between its two
handshakes. -/
theorem not_overlap_of_alone (as : List Action) (s : State)
    (hmeets : machine.Meets Alone .init as) (hrun : machine.run .init as = some s) :
    ¬ s.Overlap := by
  have hheld : Held s :=
    Machine.run_invariant (fun _ _ _ hs ha h => held_step hs ha h) held_init hmeets hrun
  exact hheld.not_overlap

/-- One sync and then a response, while the next call waits to be heard. -/
theorem not_overlap_of_alone_waiting :
    let as : List Action :=
      [.call 0, .handshake 0, .finish 0, .handshake 0, .call 1, .response 2, .event]
    machine.Meets Alone .init as ∧ ∃ s, machine.run .init as = some s ∧
      s.watcher = .handling 1 ∧ s.sync 1 = .sendingTrue ∧ ¬ s.Overlap := by
  intro as
  have hmeets : machine.Meets Alone .init as := by
    refine Machine.meets_cons trivial rfl (Machine.meets_cons ?_ rfl
      (Machine.meets_cons trivial rfl (Machine.meets_cons ?_ rfl
        (Machine.meets_cons trivial rfl (Machine.meets_cons trivial rfl
          (Machine.meets_cons trivial rfl trivial))))))
    · -- the first call is still waiting, and it is the only one
      intro _ j hj
      rcases active_move hj with ⟨-, hj⟩ | ⟨-, hj⟩
      · exact hj
      · exact hj
    · intro h
      exact absurd h (by decide)
  exact ⟨hmeets, _, rfl, rfl, rfl, not_overlap_of_alone as _ hmeets rfl⟩

/-- **Two syncs overlap.** The watcher is paused by the first, hears the
second, is let go by the end of the first and handles a response while the
second is at work. -/
theorem overlap_of_two_syncs :
    let as : List Action := [.call 0, .call 1, .handshake 0, .handshake 1, .finish 0, .handshake 0,
      .response 1]
    ∃ s, machine.run .init as = some s ∧ s.Overlap := by
  intro as
  exact ⟨_, rfl, ⟨1, rfl⟩, 1, trivial⟩

end Handshake

end Discovery

end Nrpc
