import Nrpc.Discovery.Lease
/-!
# The lease is not let go unseen

A server is known to the others as long as its lease is kept alive. Whatever
etcd answers, however the renewals and the watchers of the leases before
interleave and whichever of them time out, behind a successful `Init` there
is a goroutine that has the lease in its care: it watches a lease, or is on
its way to the next one, or has `appDieChan` to send on. The care ends only
when a stop channel is closed or the application was told to die
(`lease_in_care`). And a watcher does not try for ever: it gives up behind
`grantLeaseMaxRetries` failed renewals, or behind one that timed out, and
behind nothing less.
-/

namespace Nrpc

namespace Discovery

namespace Lease

variable {grantLeaseMaxRetries : ℤ} {s s' : State} {a : Action} {i : ℕ}

/-! ## The property -/

/-- A watcher that has the lease in its care: it has not returned, nor has
it started the watcher that is to follow it. -/
def Place.Cares : Place → Prop
  | .returned | .renewing .put | .renewing .sync => False
  | _ => True

/-- Somebody has the lease in their care. -/
def State.InCare (s : State) : Prop := ∃ w ∈ s.watchers, w.place.Cares

/-- **A watcher gives up with reason**: its failed renewals are bounded, and
where it sends on `appDieChan`, or has sent, they have come to the bound or
a renewal of its has timed out. -/
structure GivesUp (grantLeaseMaxRetries : ℤ) (seen : List Action) (i : ℕ) (w : Watcher) : Prop where
  bounded : (w.failedGrantLeaseAttempts : ℤ) ≤ max 1 grantLeaseMaxRetries
  reason : w.place = .dying ∨ .own i .dead ∈ seen →
    grantLeaseMaxRetries ≤ w.failedGrantLeaseAttempts ∨ .timeout i ∈ seen

/-! ## Steps -/

/-- **What a step can do.** -/
inductive Moves (grantLeaseMaxRetries : ℤ) (s : State) : Action → State → Prop
  | init {stage : Stage} {r : Reply} {e : Effect} (hinit : s.init = .running stage)
      (he : Advances s.leaseID stage r e) :
    Moves grantLeaseMaxRetries s (.reply .init r)
      { s with
        leaseID := e.leaseID
        init := e.progress
        watchers := s.watchers ++ e.watched.toList.map .start }
  | renewed {i : ℕ} {w : Watcher} {stage : Stage} {r : Reply} {e : Effect}
      (hw : s.watchers[i]? = some w) (hplace : w.place = .renewing stage)
      (he : Advances s.leaseID stage r e) :
    Moves grantLeaseMaxRetries s (.reply (.watcher i) r)
      { s with
        leaseID := e.leaseID
        watchers := s.watchers.set i (w.after grantLeaseMaxRetries e.progress) ++
          e.watched.toList.map .start }
  /-- A renewal nobody waits for: it may start a watcher. -/
  | detached {j : ℕ} {stage : Stage} {r : Reply} {e : Effect} {stages : List Stage}
      (hj : s.detached[j]? = some stage) (he : Advances s.leaseID stage r e) :
    Moves grantLeaseMaxRetries s (.reply (.detached j) r)
      { s with
        leaseID := e.leaseID
        watchers := s.watchers ++ e.watched.toList.map .start
        detached := stages }
  | own {i : ℕ} {w w' : Watcher} {a : Own} (hw : s.watchers[i]? = some w)
      (hown : w.own s.stopped a = some w') :
    Moves grantLeaseMaxRetries s (.own i a) { s with watchers := s.watchers.set i w' }
  | timedOut {i : ℕ} {w : Watcher} {stage : Stage} (hw : s.watchers[i]? = some w)
      (hplace : w.place = .renewing stage) :
    Moves grantLeaseMaxRetries s (.timeout i)
      { s with
        watchers := s.watchers.set i ⟨.dying, w.failedGrantLeaseAttempts + 1⟩
        detached := s.detached ++ [stage] }
  | closed : Moves grantLeaseMaxRetries s .close { s with stopped := true }

theorem moves_of_step (h : step grantLeaseMaxRetries s a = some s') :
    Moves grantLeaseMaxRetries s a s' := by
  cases a with
  | reply owner r =>
    cases owner with
    | init =>
      simp only [step] at h
      split at h
      · rename_i stage hinit
        obtain ⟨e, he, rfl⟩ := Option.map_eq_some_iff.1 h
        exact .init hinit (advances_of_eq he)
      · cases h
    | watcher i =>
      simp only [step] at h
      split at h
      · rename_i w hw
        split at h
        · rename_i stage hplace
          obtain ⟨e, he, rfl⟩ := Option.map_eq_some_iff.1 h
          exact .renewed hw hplace (advances_of_eq he)
        · cases h
      · cases h
    | detached j =>
      simp only [step] at h
      split at h
      · rename_i stage hj
        obtain ⟨e, he, rfl⟩ := Option.map_eq_some_iff.1 h
        exact .detached hj (advances_of_eq he)
      · cases h
  | own i a =>
    simp only [step] at h
    split at h
    · rename_i w hw
      obtain ⟨w', hw', rfl⟩ := Option.map_eq_some_iff.1 h
      exact .own hw hw'
    · cases h
  | timeout i =>
    simp only [step] at h
    split at h
    · rename_i w hw
      split at h
      · rename_i stage hplace
        obtain rfl := Option.some.inj h
        exact .timedOut hw hplace
      · cases h
    · cases h
  | close =>
    obtain rfl := Option.some.inj h
    exact .closed

/-! ## Care -/

/-- The call in `Init` has started its watcher and has not failed since. -/
def Progress.Settled : Progress → Prop
  | .running .put | .running .sync | .returned true => True
  | _ => False

/-- **The invariant**: the lease is in somebody's care, as long as nobody has
told the application. -/
def Minded (s : State) (seen : List Action) : Prop :=
  s.init.Settled → s.stopped = false → (∀ i, .own i .dead ∉ seen) → s.InCare

/-- One watcher moves, and others may be started. -/
theorem InCare.moved {w w' : Watcher} {started : List Watcher} (hs : s.InCare)
    (hw : s.watchers[i]? = some w)
    (hcares : w.place.Cares → w'.place.Cares ∨ ∃ x ∈ started, x.place.Cares) :
    ∃ x ∈ s.watchers.set i w' ++ started, x.place.Cares := by
  obtain ⟨x, hx, hxcares⟩ := hs
  obtain ⟨j, hj⟩ := List.mem_iff_getElem?.1 hx
  by_cases hij : i = j
  · subst hij
    obtain rfl : w = x := by simpa [hw] using hj
    rcases hcares hxcares with hw' | ⟨y, hy, hycares⟩
    · refine ⟨w', List.mem_append_left _ (List.mem_of_getElem? (i := i) ?_), hw'⟩
      obtain ⟨hlt, -⟩ := List.getElem?_eq_some_iff.1 hw
      simp [hlt]
    · exact ⟨y, List.mem_append_right _ hy, hycares⟩
  · refine ⟨x, List.mem_append_left _ (List.mem_of_getElem? (i := j) ?_), hxcares⟩
    rw [List.getElem?_set_ne hij, hj]

theorem InCare.set {w w' : Watcher} (hs : s.InCare) (hw : s.watchers[i]? = some w)
    (hcares : w'.place.Cares) : ∃ x ∈ s.watchers.set i w', x.place.Cares := by
  have hmoved : ∃ x ∈ s.watchers.set i w' ++ [], x.place.Cares :=
    InCare.moved hs hw fun _ => Or.inl hcares
  rwa [List.append_nil] at hmoved

/-- **A renewal hands the lease over**, to the watcher it starts or back to
the retry loop. -/
theorem cares_renewed {w : Watcher} {stage : Stage} {r : Reply} {e : Effect} {leaseID : ℕ}
    (he : Advances leaseID stage r e) (hcares : (Place.renewing stage).Cares) :
    (w.after grantLeaseMaxRetries e.progress).place.Cares ∨
      ∃ x ∈ e.watched.toList.map Watcher.start, x.place.Cares := by
  cases he with
  | received lease => exact Or.inr ⟨.start lease, by simp, trivial⟩
  | stored => exact hcares.elim
  | synced => exact hcares.elim
  | failed =>
    refine Or.inl ?_
    simp only [Watcher.after]
    split <;> trivial
  | _ => exact Or.inl trivial

/-- By itself a watcher goes on caring, unless it is stopped or tells the
application. -/
theorem Owns.cares {p p' : Place} {act : Own} {stopped : Bool} (h : Owns stopped p act p')
    (hstopped : stopped = false) (hact : act ≠ .dead) : p'.Cares := by
  cases h with
  | dead => exact absurd rfl hact
  | leave lease h =>
    rw [hstopped] at h
    cases h
  | _ => trivial

/-- **A step keeps the lease in somebody's care.** -/
theorem minded_moves {seen : List Action} (hs : Minded s seen)
    (hmoves : Moves grantLeaseMaxRetries s a s') : Minded s' (seen ++ [a]) := by
  intro hsettled hstopped htold
  have htold' : ∀ i, .own i .dead ∉ seen := fun i hi => htold i (List.mem_append_left _ hi)
  cases hmoves with
  | init hinit he =>
    cases he with
    | received lease => exact ⟨.start lease, by simp, trivial⟩
    | stored =>
      obtain ⟨w, hw, hcares⟩ := hs (by rw [hinit]; trivial) hstopped htold'
      exact ⟨w, List.mem_append_left _ hw, hcares⟩
    | synced =>
      obtain ⟨w, hw, hcares⟩ := hs (by rw [hinit]; trivial) hstopped htold'
      exact ⟨w, List.mem_append_left _ hw, hcares⟩
    | _ => exact hsettled.elim
  | renewed hw hplace he =>
    refine InCare.moved (hs hsettled hstopped htold') hw fun hcares => ?_
    rw [hplace] at hcares
    exact cares_renewed he hcares
  | detached =>
    obtain ⟨w, hw, hcares⟩ := hs hsettled hstopped htold'
    exact ⟨w, List.mem_append_left _ hw, hcares⟩
  | @own i w w' act hw hown =>
    have hact : act ≠ .dead := by
      rintro rfl
      exact htold i (by simp)
    exact InCare.set (hs hsettled hstopped htold') hw ((owns_of_eq hown).cares hstopped hact)
  | timedOut hw hplace => exact InCare.set (hs hsettled hstopped htold') hw trivial
  | closed => cases hstopped

/-! ## Giving up -/

/-- A watcher that has not given up has tries left. -/
def Watcher.Tries (grantLeaseMaxRetries : ℤ) (w : Watcher) : Prop :=
  w.place ≠ .dying → w.place ≠ .returned →
    (w.failedGrantLeaseAttempts : ℤ) < max 1 grantLeaseMaxRetries

/-- **The invariant**, of the watchers and the actions so far: only a
watcher that has returned has told the application. -/
structure Counted (grantLeaseMaxRetries : ℤ) (ws : List Watcher) (seen : List Action) : Prop where
  watchers : ∀ (i : ℕ) w, ws[i]? = some w →
    GivesUp grantLeaseMaxRetries seen i w ∧ w.Tries grantLeaseMaxRetries
  told : ∀ i, .own i .dead ∈ seen → ∃ w, ws[i]? = some w ∧ w.place = .returned

section Counting

variable {ws : List Watcher} {seen : List Action} {w w' : Watcher}

/-- Another action gives no new reason to ask. -/
theorem GivesUp.later (hw : GivesUp grantLeaseMaxRetries seen i w) (ha : a ≠ .own i .dead) :
    GivesUp grantLeaseMaxRetries (seen ++ [a]) i w where
  bounded := hw.bounded
  reason hgaveUp := by
    have hbefore : w.place = .dying ∨ .own i .dead ∈ seen := by
      refine hgaveUp.imp_right fun hmem => ?_
      rcases List.mem_append.1 hmem with hmem | hmem
      · exact hmem
      · exact absurd (List.mem_singleton.1 hmem).symm ha
    exact (hw.reason hbefore).imp_right fun hmem => List.mem_append_left _ hmem

/-- An action of nobody, or a reply that changes nobody. -/
theorem Counted.later (h : Counted grantLeaseMaxRetries ws seen) (ha : ∀ i, a ≠ .own i .dead) :
    Counted grantLeaseMaxRetries ws (seen ++ [a]) where
  watchers i w hw := ⟨(h.watchers i w hw).1.later (ha i), (h.watchers i w hw).2⟩
  told i hmem := by
    rcases List.mem_append.1 hmem with hmem | hmem
    · exact h.told i hmem
    · exact absurd (List.mem_singleton.1 hmem).symm (ha i)

/-- A watcher that was just started has counted nothing. -/
theorem Counted.started (h : Counted grantLeaseMaxRetries ws seen) (watched : Option ℕ) :
    Counted grantLeaseMaxRetries (ws ++ watched.toList.map .start) seen where
  watchers i w hw := by
    rw [List.getElem?_append] at hw
    split at hw
    · exact h.watchers i w hw
    · rename_i hlt
      obtain ⟨lease, -, rfl⟩ := List.mem_map.1 (List.mem_of_getElem? hw)
      refine ⟨⟨by simp [Watcher.start], ?_⟩, ?_⟩
      · rintro (hdying | hmem)
        · cases hdying
        · -- nobody was there to tell the application
          obtain ⟨x, hx, -⟩ := h.told i hmem
          exact absurd (List.getElem?_eq_some_iff.1 hx).1 hlt
      · intro _ _
        simp [Watcher.start]
  told i hmem := by
    obtain ⟨x, hx, hreturned⟩ := h.told i hmem
    refine ⟨x, ?_, hreturned⟩
    rw [List.getElem?_append_left (List.getElem?_eq_some_iff.1 hx).1, hx]

/-- **A watcher that has not returned moves.** -/
theorem Counted.set (h : Counted grantLeaseMaxRetries ws seen) (hw : ws[i]? = some w)
    (hplace : w.place ≠ .returned) (hown : ∀ j, a = .own j .dead → j = i ∧ w'.place = .returned)
    (hbounded : (w'.failedGrantLeaseAttempts : ℤ) ≤ max 1 grantLeaseMaxRetries)
    (hreason : w'.place = .dying ∨ a = .own i .dead →
      grantLeaseMaxRetries ≤ w'.failedGrantLeaseAttempts ∨ .timeout i ∈ seen ++ [a])
    (htries : w'.Tries grantLeaseMaxRetries) :
    Counted grantLeaseMaxRetries (ws.set i w') (seen ++ [a]) := by
  have hlt : i < ws.length := (List.getElem?_eq_some_iff.1 hw).1
  have huntold : .own i .dead ∉ seen := by
    intro hmem
    obtain ⟨x, hx, hreturned⟩ := h.told i hmem
    obtain rfl : w = x := by simpa [hw] using hx
    exact hplace hreturned
  constructor
  · intro j x hx
    by_cases hij : i = j
    · subst hij
      obtain rfl : w' = x := by simpa [hlt] using hx
      refine ⟨⟨hbounded, fun hgaveUp => hreason (hgaveUp.imp_right fun hmem => ?_)⟩, htries⟩
      rcases List.mem_append.1 hmem with hmem | hmem
      · exact absurd hmem huntold
      · exact (List.mem_singleton.1 hmem).symm
    · rw [List.getElem?_set_ne hij] at hx
      refine ⟨(h.watchers j x hx).1.later fun ha => hij (hown j ha).1.symm, (h.watchers j x hx).2⟩
  · intro j hmem
    rcases List.mem_append.1 hmem with hmem | hmem
    · obtain ⟨x, hx, hreturned⟩ := h.told j hmem
      have hij : i ≠ j := by
        rintro rfl
        exact huntold hmem
      exact ⟨x, by rw [List.getElem?_set_ne hij, hx], hreturned⟩
    · obtain ⟨rfl, hreturned⟩ := hown j (List.mem_singleton.1 hmem).symm
      exact ⟨w', by simp [hlt], hreturned⟩

/-- The retry loop counts, and looks at its count. -/
theorem after_counts {progress : Progress}
    (htries : (w.failedGrantLeaseAttempts : ℤ) < max 1 grantLeaseMaxRetries) :
    let w' := w.after grantLeaseMaxRetries progress
    (w'.failedGrantLeaseAttempts : ℤ) ≤ max 1 grantLeaseMaxRetries ∧
      (w'.place = .dying → grantLeaseMaxRetries ≤ w'.failedGrantLeaseAttempts) ∧
      w'.Tries grantLeaseMaxRetries := by
  intro w'
  cases progress with
  | running stage =>
    exact ⟨htries.le, fun hdying => (by cases hdying), fun _ _ => htries⟩
  | returned ok =>
    cases ok with
    | true =>
      exact ⟨htries.le, fun hdying => (by cases hdying), fun _ hreturned => absurd rfl hreturned⟩
    | false =>
      have hcount : w'.failedGrantLeaseAttempts = w.failedGrantLeaseAttempts + 1 := rfl
      by_cases hmax : grantLeaseMaxRetries ≤ (w.failedGrantLeaseAttempts + 1 : ℕ)
      · have hplace : w'.place = .dying := if_pos hmax
        refine ⟨by omega, fun _ => hmax, fun hdying => absurd hplace hdying⟩
      · have hplace : w'.place = .sleeping := if_neg hmax
        refine ⟨by omega, ?_, fun _ _ => by omega⟩
        rw [hplace]
        exact fun hdying => by cases hdying

/-- What a watcher does by itself adds nothing to its count, and only one
that gives up already tells the application. -/
theorem own_counts {act : Own} {stopped : Bool} (h : w.own stopped act = some w') :
    w.place ≠ .returned ∧ w'.place ≠ .dying ∧
      w'.failedGrantLeaseAttempts ≤ w.failedGrantLeaseAttempts ∧
      (w.place = .dying ↔ act = .dead) ∧
      (act = .dead → w'.place = .returned ∧
        w'.failedGrantLeaseAttempts = w.failedGrantLeaseAttempts) := by
  rcases w with ⟨p, n⟩
  cases act <;> cases p <;> simp only [Watcher.own, Option.some.injEq, reduceCtorEq, if_true,
    if_false] at h
  case leave.watching lease =>
    split at h
    · obtain rfl := Option.some.inj h
      simp
    · cases h
  all_goals
    subst h
    simp

end Counting

theorem counted_moves {seen : List Action} (hs : Counted grantLeaseMaxRetries s.watchers seen)
    (hmoves : Moves grantLeaseMaxRetries s a s') :
    Counted grantLeaseMaxRetries s'.watchers (seen ++ [a]) := by
  cases hmoves with
  | init => exact (hs.later (by simp)).started _
  | detached => exact (hs.later (by simp)).started _
  | closed => exact hs.later (by simp)
  | @renewed i w stage r e hw hplace he =>
    have htries := (hs.watchers i w hw).2 (by simp [hplace]) (by simp [hplace])
    obtain ⟨hbounded, hdying, htries'⟩ := @after_counts _ w e.progress htries
    refine (hs.set hw (by simp [hplace]) (by simp) hbounded ?_ htries').started _
    rintro (hgaveUp | hdead)
    · exact Or.inl (hdying hgaveUp)
    · cases hdead
  | @own i w w' act hw hown =>
    obtain ⟨hreturned, hdying, hcount, hdead, htold⟩ := own_counts hown
    obtain ⟨hgivesUp, htries⟩ := hs.watchers i w hw
    have hbounded := hgivesUp.bounded
    refine hs.set hw hreturned ?_ (by omega) ?_ ?_
    · rintro j hj
      obtain ⟨rfl, rfl⟩ := Action.own.inj hj
      exact ⟨rfl, (htold rfl).1⟩
    · rintro (hgaveUp | hact)
      · exact absurd hgaveUp hdying
      · obtain ⟨-, rfl⟩ := Action.own.inj hact
        rw [(htold rfl).2]
        exact (hgivesUp.reason (Or.inl (hdead.2 rfl))).imp_right (List.mem_append_left _)
    · intro _ hreturned'
      have hact : act ≠ .dead := fun hact => hreturned' (htold hact).1
      have hless := htries (fun hw => hact (hdead.1 hw)) hreturned
      omega
  | @timedOut i w stage hw hplace =>
    have htries := (hs.watchers i w hw).2 (by simp [hplace]) (by simp [hplace])
    refine hs.set hw (by simp [hplace]) (by simp) ?_ (fun _ => Or.inr (by simp)) ?_
    · push_cast
      omega
    · intro hdying
      exact absurd rfl hdying

/-! ## Every run -/

/-- **The lease is not let go unseen.** Behind a successful `Init`, unless a
stop channel is closed or a watcher has given up, having told the application
if there is an `appDieChan` to tell it by, there is a watcher that has the
lease in its care. The failed renewals of a watcher are bounded, and one that
gives up has come to the bound or timed out. -/
theorem lease_in_care (grantLeaseMaxRetries : ℤ) (as : List Action) (s : State)
    (hrun : (machine grantLeaseMaxRetries).run .start as = some s) :
    (s.init = .returned true → s.stopped = false → (∀ i, .own i .dead ∉ as) → s.InCare) ∧
    ∀ (i : ℕ) w, s.watchers[i]? = some w → GivesUp grantLeaseMaxRetries as i w := by
  have hinv : Minded s ([] ++ as) ∧ Counted grantLeaseMaxRetries s.watchers ([] ++ as) := by
    refine Machine.run_trace
      (I := fun s seen => Minded s seen ∧ Counted grantLeaseMaxRetries s.watchers seen) ?_ ?_ hrun
    · rintro s a s' seen ⟨hminded, hcounted⟩ hstep
      have hmoves := moves_of_step hstep
      exact ⟨minded_moves hminded hmoves, counted_moves hcounted hmoves⟩
    · exact ⟨fun hsettled => hsettled.elim, by simp [State.start], by simp⟩
  rw [List.nil_append] at hinv
  refine ⟨fun hinit => hinv.1 (by rw [hinit]; trivial), ?_⟩
  intro i w hw
  exact (hinv.2.watchers i w hw).1

/-- The lease dies, and two renewals fail. -/
def twoFailures : List Action := bootstrap ++
  [.own 0 .closed, .own 0 .wake, .reply (.watcher 0) .failed, .own 0 .wake,
    .reply (.watcher 0) .failed]

/-- Where two renewals are allowed, the watcher cares until it gives up. -/
theorem lease_in_care_twice :
    ∃ s w, (machine 2).run .start twoFailures = some s ∧ s.watchers[0]? = some w ∧
      w.place = .dying ∧ s.InCare ∧ 2 ≤ w.failedGrantLeaseAttempts := by
  have hrun : (machine 2).run .start twoFailures =
      some ⟨1, .returned true, [⟨.dying, 2⟩], [], false⟩ := by decide
  obtain ⟨hcare, hgivesUp⟩ := lease_in_care 2 twoFailures _ hrun
  refine ⟨_, _, hrun, rfl, rfl, hcare rfl rfl (by simp [twoFailures, bootstrap]), ?_⟩
  rcases (hgivesUp 0 _ rfl).reason (Or.inl rfl) with hmax | htimeout
  · exact_mod_cast hmax
  · simp [twoFailures, bootstrap] at htimeout

end Lease

end Discovery

end Nrpc
