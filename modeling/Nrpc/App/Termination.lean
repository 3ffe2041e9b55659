import Nrpc.App.Model.Termination
/-!
# When `dieChan` is closed once and not sent on again

A party commits itself to ending the app before it acts: `Start` when it
takes a signal, `Shutdown` when it finds nothing to receive, a lease
watcher when it gives up, the closed handler when it is called with an
error. Between the commitment and the close or the send the others go on,
and nothing makes them look at the channel again (`termination_panics`).

`Clear` says of a step that a party that will close commits itself only
when the channel is open and nobody else is committed, and one that will
send only when the channel is open and nobody is about to close it. In a
run of such steps the channel is closed at most once and never sent on
afterwards (`termination_safe_of_clear`).
-/

namespace Nrpc

namespace App

variable {cfg : Config} {s s' : State} {a : Action}

/-! ## The condition -/

/-- A party is about to close the channel. -/
def State.Closing (s : State) : Prop := s.start = .closing ∨ s.shutdown = .closing

/-- A party is about to send on the channel. -/
def State.Sending (s : State) : Prop := .sending ∈ s.leases ∨ .selecting ∈ s.handlers

instance : Decidable s.Closing :=
  inferInstanceAs (Decidable (s.start = .closing ∨ s.shutdown = .closing))

instance : Decidable s.Sending :=
  inferInstanceAs (Decidable (.sending ∈ s.leases ∨ .selecting ∈ s.handlers))

/-- A lease watcher gives up: `renewLease` timed out, or failed once too
often. -/
def GivesUp (cfg : Config) : LeasePc → LeaseEvent → Prop
  | .renewing _, .timedOut => True
  | .renewing n, .failed => cfg.grantLeaseMaxRetries ≤ n + 1
  | _, _ => False

instance decidableGivesUp (cfg : Config) : ∀ pc e, Decidable (GivesUp cfg pc e)
  | .renewing _, .timedOut => isTrue trivial
  | .renewing n, .failed => inferInstanceAs (Decidable (cfg.grantLeaseMaxRetries ≤ n + 1))
  | .renewing _, .keptAlive | .renewing _, .lost | .renewing _, .renewed | .watching _, _
  | .sending, _ | .returned, _ => isFalse id

/-- **The condition on a step.** -/
def Clear (cfg : Config) (s : State) : Action → Prop
  | .startSignal | .shutdownDefault => s.closed = false ∧ ¬ s.Closing ∧ ¬ s.Sending
  | .lease j e => ∀ pc ∈ s.leases[j]?, GivesUp cfg pc e → s.closed = false ∧ ¬ s.Closing
  | .natsClosed => s.closed = false ∧ ¬ s.Closing
  | _ => True

instance (a : Action) : Decidable (Clear cfg s a) :=
  match a with
  | .startSignal | .shutdownDefault =>
    inferInstanceAs (Decidable (s.closed = false ∧ ¬ s.Closing ∧ ¬ s.Sending))
  | .lease j e => inferInstanceAs (Decidable
      (∀ pc ∈ s.leases[j]?, GivesUp cfg pc e → s.closed = false ∧ ¬ s.Closing))
  | .natsClosed => inferInstanceAs (Decidable (s.closed = false ∧ ¬ s.Closing))
  | .started | .signal | .startDie | .startClose | .shutdownModules | .shutdown | .shutdownDie
  | .shutdownClose | .grantLease | .leaseStop _ | .leaseSend .. | .handlerSend _
  | .handlerInitial _ | .handlerDefault _ => isTrue trivial

/-! ## The invariant -/

/-- **Who is committed to what**: whoever is about to close the channel is
alone and finds it open, whoever is about to send finds it open. -/
structure Orderly (s : State) : Prop where
  alone : ¬ (s.start = .closing ∧ s.shutdown = .closing)
  closers : s.Closing → s.closed = false ∧ ¬ s.Sending
  senders : s.Sending → s.closed = false
  sound : s.ended = none ∨ s.ended = some .killed

theorem orderly_init : Orderly .init where
  alone := by decide
  closers := fun h => absurd h (by decide)
  senders := fun h => absurd h (by decide)
  sound := Or.inl rfl

/-- A step after which no more parties are committed, with the channel as
it was. -/
theorem Orderly.fewer (hs : Orderly s) (hclosed : s'.closed = s.closed)
    (hstart : s'.start = .closing → s.start = .closing)
    (hshutdown : s'.shutdown = .closing → s.shutdown = .closing)
    (hsending : s'.Sending → s.Sending)
    (hended : s'.ended = none ∨ s'.ended = some .killed) : Orderly s' where
  alone := fun h => hs.alone ⟨hstart h.1, hshutdown h.2⟩
  closers := by
    intro h
    obtain ⟨hopen, hnone⟩ := hs.closers (h.imp hstart hshutdown)
    exact ⟨by rw [hclosed, hopen], fun h => hnone (hsending h)⟩
  senders := by
    intro h
    rw [hclosed]
    exact hs.senders (hsending h)
  sound := hended

/-- A party that will close commits itself with the channel open and nobody
else committed. -/
theorem Orderly.commit_close (hopen : s'.closed = false)
    (halone : ¬ (s'.start = .closing ∧ s'.shutdown = .closing)) (hnone : ¬ s'.Sending)
    (hended : s'.ended = none) : Orderly s' where
  alone := halone
  closers := fun _ => ⟨hopen, hnone⟩
  senders := fun _ => hopen
  sound := Or.inl hended

/-- A party that will send commits itself with the channel open and nobody
about to close it. -/
theorem Orderly.commit_send (hopen : s'.closed = false) (hnone : ¬ s'.Closing)
    (hended : s'.ended = none) : Orderly s' where
  alone := fun h => hnone (Or.inl h.1)
  closers := fun h => absurd h hnone
  senders := fun _ => hopen
  sound := Or.inl hended

/-- **The close**: it was the only commitment. -/
theorem Orderly.closed (hclosing : ¬ s'.Closing) (hsending : ¬ s'.Sending)
    (hended : s'.ended = none) : Orderly s' where
  alone := fun h => hclosing (Or.inl h.1)
  closers := fun h => absurd h hclosing
  senders := fun h => absurd h hsending
  sound := Or.inl hended

/-! ## Who is sending -/

theorem Sending.of_watch {j : ℕ} {pc : LeasePc} (hpc : pc ≠ .sending)
    (h : (s.watch j pc).Sending) : s.Sending := by
  rcases h with h | h
  · rcases List.mem_or_eq_of_mem_set h with hmem | heq
    · exact Or.inl hmem
    · exact absurd heq.symm hpc
  · exact Or.inr h

theorem Sending.of_handle {h : ℕ} (hsend : (s.handle h .returned).Sending) : s.Sending := by
  rcases hsend with hmem | hmem
  · exact Or.inl hmem
  · rcases List.mem_or_eq_of_mem_set hmem with hmem | heq
    · exact Or.inr hmem
    · cases heq

/-- A watcher sends next only when it has given up. -/
theorem watchLease_eq_sending {pc : LeasePc} {e : LeaseEvent}
    (h : watchLease cfg pc e = some .sending) : GivesUp cfg pc e := by
  unfold watchLease at h
  split at h
  · cases h
  · cases h
  · cases h
  · trivial
  · split at h
    · assumption
    · cases h
  · cases h

/-! ## Every step, every run -/

/-- A close by the party that stands before it finds the channel open. -/
theorem Orderly.close_eq (hs : Orderly s) (hclosing : s.Closing) :
    s.close = { s with closed := true } := by
  simp [State.close, (hs.closers hclosing).1]

/-- A signal commits nobody. -/
theorem Orderly.signal (hs : Orderly s) : Orderly s.signal := by
  unfold State.signal
  split
  · exact hs.fewer rfl id id id (Or.inr rfl)
  · exact hs.fewer rfl id id id hs.sound

/-- A receive lets `Start` or `Shutdown` go on without a close. -/
theorem Orderly.receive {r : Receiver} (hs : Orderly s) (h : receive s r = some s') :
    Orderly s' := by
  cases r with
  | start =>
    obtain ⟨-, h⟩ := Option.ite_none_right_eq_some.1 h
    obtain rfl := Option.some.inj h
    exact hs.fewer rfl (fun h => by cases h) id id hs.sound
  | shutdown =>
    obtain ⟨-, h⟩ := Option.ite_none_right_eq_some.1 h
    obtain rfl := Option.some.inj h
    exact hs.fewer rfl id (fun h => by cases h) id hs.sound

/-- A watcher that does not come to its send. -/
theorem Orderly.watch {j : ℕ} {pc : LeasePc} (hs : Orderly s) (hpc : pc ≠ .sending) :
    Orderly (s.watch j pc) :=
  hs.fewer rfl id id (Sending.of_watch hpc) hs.sound

theorem Orderly.handle {h : ℕ} (hs : Orderly s) : Orderly (s.handle h .returned) :=
  hs.fewer rfl id id Sending.of_handle hs.sound

/-- **A clear step keeps the parties orderly.** -/
theorem orderly_step (hs : Orderly s) (hclear : Clear cfg s a)
    (h : step cfg s a = some s') : Orderly s' := by
  unfold step at h
  obtain ⟨hended, h⟩ := Option.ite_none_left_eq_some.1 h
  have hended : s.ended = none := by simpa using hended
  cases a with
  | started | startDie | shutdownModules =>
    obtain ⟨-, h⟩ := Option.ite_none_right_eq_some.1 h
    obtain rfl := Option.some.inj h
    exact hs.fewer rfl (fun h => by cases h) id id hs.sound
  | shutdown | shutdownDie =>
    obtain ⟨-, h⟩ := Option.ite_none_right_eq_some.1 h
    obtain rfl := Option.some.inj h
    exact hs.fewer rfl id (fun h => by cases h) id hs.sound
  | signal =>
    obtain rfl := Option.some.inj h
    exact hs.signal
  | startSignal =>
    obtain ⟨-, h⟩ := Option.ite_none_right_eq_some.1 h
    obtain rfl := Option.some.inj h
    obtain ⟨hopen, hclosing, hsending⟩ := hclear
    exact .commit_close hopen (fun h => hclosing (Or.inr h.2)) hsending hended
  | shutdownDefault =>
    obtain ⟨-, h⟩ := Option.ite_none_right_eq_some.1 h
    obtain rfl := Option.some.inj h
    obtain ⟨hopen, hclosing, hsending⟩ := hclear
    exact .commit_close hopen (fun h => hclosing (Or.inl h.1)) hsending hended
  | startClose =>
    obtain ⟨hpc, h⟩ := Option.ite_none_right_eq_some.1 h
    have hclosing : s.Closing := Or.inl hpc
    rw [hs.close_eq hclosing] at h
    obtain rfl := Option.some.inj h
    refine .closed ?_ (hs.closers hclosing).2 hended
    rintro (hstart | hshutdown)
    · cases hstart
    · exact hs.alone ⟨hpc, hshutdown⟩
  | shutdownClose =>
    obtain ⟨hpc, h⟩ := Option.ite_none_right_eq_some.1 h
    have hclosing : s.Closing := Or.inr hpc
    rw [hs.close_eq hclosing] at h
    obtain rfl := Option.some.inj h
    refine .closed ?_ (hs.closers hclosing).2 hended
    rintro (hstart | hshutdown)
    · exact hs.alone ⟨hstart, hpc⟩
    · cases hshutdown
  | grantLease =>
    obtain rfl := Option.some.inj h
    refine hs.fewer rfl id id ?_ hs.sound
    rintro (hmem | hmem)
    · exact Or.inl (by simpa using hmem)
    · exact Or.inr hmem
  | lease j e =>
    obtain ⟨pc', hpc', rfl⟩ := Option.map_eq_some_iff.1 h
    obtain ⟨pc, hpc, hwatch⟩ := Option.bind_eq_some_iff.1 hpc'
    by_cases hsend : pc' = .sending
    · subst hsend
      obtain ⟨hopen, hclosing⟩ := hclear pc hpc (watchLease_eq_sending hwatch)
      exact .commit_send hopen hclosing hended
    · exact hs.watch hsend
  | leaseStop j =>
    simp only at h
    split at h
    · obtain ⟨-, h⟩ := Option.ite_none_right_eq_some.1 h
      obtain rfl := Option.some.inj h
      exact hs.watch (by decide)
    · cases h
  | leaseSend j r =>
    obtain ⟨hpc, h⟩ := Option.ite_none_right_eq_some.1 h
    have hopen := hs.senders (Or.inl (List.mem_of_getElem? hpc))
    rw [if_neg (by simp [hopen])] at h
    obtain ⟨mid, hmid, rfl⟩ := Option.map_eq_some_iff.1 h
    exact (hs.receive hmid).watch (by decide)
  | natsClosed =>
    obtain rfl := Option.some.inj h
    exact .commit_send hclear.1 hclear.2 hended
  | handlerSend n =>
    obtain ⟨hpc, h⟩ := Option.ite_none_right_eq_some.1 h
    have hopen := hs.senders (Or.inr (List.mem_of_getElem? hpc))
    rw [if_neg (by simp [hopen])] at h
    obtain ⟨mid, hmid, rfl⟩ := Option.map_eq_some_iff.1 h
    exact (hs.receive hmid).handle
  | handlerInitial n =>
    obtain ⟨-, h⟩ := Option.ite_none_right_eq_some.1 h
    obtain rfl := Option.some.inj h
    exact hs.handle
  | handlerDefault n =>
    obtain ⟨-, h⟩ := Option.ite_none_right_eq_some.1 h
    obtain rfl := Option.some.inj h
    exact hs.signal.handle

/-- **Parties that commit themselves one at a time close `dieChan` at most
once and do not send on it afterwards.** -/
theorem termination_safe_of_clear (cfg : Config) (as : List Action) (s : State)
    (hclear : (parties cfg).Meets (Clear cfg) .init as)
    (hrun : (parties cfg).run .init as = some s) :
    s.ended ≠ some .closeOfClosedChannel ∧ s.ended ≠ some .sendOnClosedChannel := by
  have horderly : Orderly s :=
    Machine.run_invariant (fun _ _ _ hs hclear h => orderly_step hs hclear h) orderly_init
      hclear hrun
  rcases horderly.sound with h | h <;> rw [h] <;> decide

/-- The default configuration. -/
def defaultRetries : Config := ⟨15⟩

/-- A watcher gives up and `Start` receives its send; `Shutdown` is called
twice after that. -/
theorem termination_safe_of_clear_lease :
    let as := [.started, .grantLease, .lease 0 .lost, .lease 0 .timedOut, .leaseSend 0 .start,
      .shutdown, .shutdownDefault, .shutdownClose, .shutdown, .shutdownDie]
    (parties defaultRetries).Meets (Clear defaultRetries) .init as ∧
      ∃ s, (parties defaultRetries).run .init as = some s ∧ s.closed = true ∧
        s.ended ≠ some .closeOfClosedChannel ∧ s.ended ≠ some .sendOnClosedChannel := by
  intro as
  have hclear : (parties defaultRetries).Meets (Clear defaultRetries) .init as := by
    decide +kernel
  have hrun : ((parties defaultRetries).run .init as).map State.closed = some true := by
    decide +kernel
  obtain ⟨s, hs, hclosed⟩ := Option.map_eq_some_iff.1 hrun
  exact ⟨hclear, s, hs, hclosed, termination_safe_of_clear defaultRetries as s hclear hs⟩

/-- **The panics.** `Shutdown` finds the channel open, a signal makes
`Start` close it, and `Shutdown` closes it again; a lease watcher gives up,
or a NATS connection is closed with an error, after a signal has made
`Start` close the channel. -/
theorem termination_panics :
    ((parties defaultRetries).run .init
      [.started, .shutdown, .shutdownDefault, .signal, .startSignal, .startClose,
        .shutdownClose]).map State.ended = some (some .closeOfClosedChannel) ∧
    ((parties defaultRetries).run .init
      [.started, .grantLease, .lease 0 .lost, .signal, .startSignal, .startClose,
        .lease 0 .timedOut, .leaseSend 0 .start]).map State.ended =
      some (some .sendOnClosedChannel) ∧
    ((parties defaultRetries).run .init
      [.started, .signal, .startSignal, .startClose, .natsClosed, .handlerSend 0]).map
        State.ended = some (some .sendOnClosedChannel) := by
  refine ⟨?_, ?_, ?_⟩ <;> decide +kernel

end App

end Nrpc
