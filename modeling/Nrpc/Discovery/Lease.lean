import Nrpc.Common.Tally
import Nrpc.Discovery.Model.Lease
/-!
# One watcher for the lease

A watcher that renews the lease hands it over: the grant starts the next
watcher, and once the server is put the old one returns. Nothing takes the
handing over back. If the put fails the old watcher grants again, and
starts another watcher beside the one it has started already
(`watchers_leak`); and if the channel of the new lease dies while the old
watcher is still at its put, both renew.

Where neither happens one goroutine at a time has the lease to look after:
`Place.holds` counts the ones that watch or have a watcher still to start,
and each start takes from the one what it gives to the other. So at most
one watcher runs beside one in its retry loop, and behind a retry loop that
has succeeded one is left, on the lease in `leaseID`
(`one_watcher`).
-/

namespace Nrpc

namespace Discovery

namespace Lease

variable {grantLeaseMaxRetries : ℤ} {s s' : State} {p p' x : Place} {i lease : ℕ}

/-! ## Counting the watchers -/

/-- Where the watchers stand. -/
def State.places (s : State) : List Place := s.watchers.map (·.place)

/-- A watcher that has not returned. -/
def Place.alive : Place → ℕ
  | .returned => 0
  | _ => 1

/-- A watcher in its retry loop. -/
def Place.retrying : Place → ℕ
  | .renewing _ | .sleeping | .dying => 1
  | _ => 0

/-- The watchers that have not returned. -/
def State.alive (s : State) : ℕ := tally Place.alive s.places

/-- The watchers in their retry loops. -/
def State.retrying (s : State) : ℕ := tally Place.retrying s.places

/-- A call that has its watcher still to start. -/
def Stage.pending : Stage → ℕ
  | .grant | .granted | .keepAlive _ | .receive _ => 1
  | .put | .sync => 0

/-- The lease `KeepAlive` was called for. -/
def Stage.lease? : Stage → Option ℕ
  | .keepAlive lease | .receive lease => some lease
  | .grant | .granted | .put | .sync => none

def Progress.pending : Progress → ℕ
  | .running stage => stage.pending
  | .returned _ => 0

/-- **Who looks after the lease**: a watcher of it, or one that has the next
watcher still to start. -/
def Place.holds : Place → ℕ
  | .watching _ | .died _ | .sleeping => 1
  | .renewing stage => stage.pending
  | .dying | .returned => 0

/-- A call past its grant, with the server still to put or to sync. -/
def Place.HandedOver (p : Place) : Prop := p = .renewing .put ∨ p = .renewing .sync

/-- **The runs in which the lease is handed over in order**: no renewal
times out, no renewal that could be tried again fails at its put, and the
channel of a lease dies only while no watcher is in its retry loop. -/
def InOrder (grantLeaseMaxRetries : ℤ) (s : State) : Action → Prop
  | .reply (.watcher i) .failed => ∀ w, s.watchers[i]? = some w → w.place = .renewing .put →
      grantLeaseMaxRetries ≤ (w.failedGrantLeaseAttempts + 1 : ℕ)
  | .own _ .closed => s.retrying = 0
  | .own _ .nothing => s.retrying = 0
  | .timeout _ => False
  | _ => True

instance (grantLeaseMaxRetries : ℤ) (s : State) :
    ∀ a, Decidable (InOrder grantLeaseMaxRetries s a)
  | .reply (.watcher i) .failed =>
    match h : s.watchers[i]? with
    | none => isTrue (by simp [InOrder, h])
    | some w => decidable_of_iff (w.place = .renewing .put →
        grantLeaseMaxRetries ≤ (w.failedGrantLeaseAttempts + 1 : ℕ)) (by simp [InOrder, h])
  | .reply (.watcher _) .ok | .reply (.watcher _) (.granted _) => isTrue trivial
  | .reply .init _ | .reply (.detached _) _ => isTrue trivial
  | .own _ .closed | .own _ .nothing => inferInstanceAs (Decidable (s.retrying = 0))
  | .own _ .response | .own _ .wake | .own _ .dead | .own _ .leave => isTrue trivial
  | .timeout _ => isFalse id
  | .close => isTrue trivial

/-- **The lease is in one hand.** -/
structure InHand (s : State) : Prop where
  holds : s.init.pending + tally Place.holds s.places ≤ 1
  retrying : s.retrying ≤ 1
  detached : s.detached = []
  /-- Before `Init` has its lease there is no watcher. -/
  init : s.init.pending = 1 → s.places = []
  /-- `KeepAlive` is called for the lease in `leaseID`. -/
  initLease : ∀ stage lease, s.init = .running stage → stage.lease? = some lease →
    lease = s.leaseID
  lease : ∀ stage lease, .renewing stage ∈ s.places → stage.lease? = some lease →
    lease = s.leaseID
  /-- A watcher whose channel has died is the only one. -/
  died : ∀ lease, .died lease ∈ s.places → s.retrying = 0
  /-- What was handed over is watched. -/
  watched : s.stopped = false → ∀ p ∈ s.places, p.HandedOver → .watching s.leaseID ∈ s.places

theorem Stage.pending_of_lease? {stage : Stage} (h : stage.lease? = some lease) :
    stage.pending = 1 := by
  cases stage <;> first | rfl | cases h

theorem inHand_start : InHand .start where
  holds := by decide
  retrying := by decide
  detached := rfl
  init := fun _ => rfl
  initLease := by
    rintro stage lease ⟨⟩ h
    cases h
  lease := fun stage lease h => by cases h
  died := fun lease h => by cases h
  watched := fun _ p h => by cases h

theorem Place.alive_le (p : Place) : p.alive ≤ p.holds + p.retrying := by
  cases p <;> simp [alive, holds, retrying]

theorem Place.HandedOver.retrying_eq (h : p.HandedOver) : p.retrying = 1 := by
  rcases h with rfl | rfl
  · rfl
  · rfl

/-- The watchers a grant starts watch. -/
theorem mem_started {watched : Option ℕ} (h : x ∈ watched.toList.map Place.watching) :
    ∃ lease, watched = some lease ∧ x = .watching lease := by
  obtain ⟨lease, hlease, rfl⟩ := List.mem_map.1 h
  exact ⟨lease, Option.mem_toList.1 hlease, rfl⟩

theorem tally_retrying_started (watched : Option ℕ) :
    tally Place.retrying (watched.toList.map .watching) = 0 :=
  tally_eq_zero fun x hx => by
    obtain ⟨lease, -, rfl⟩ := mem_started hx
    rfl

theorem tally_holds_started (watched : Option ℕ) :
    tally Place.holds (watched.toList.map .watching) = watched.toList.length := by
  cases watched with
  | none => rfl
  | some lease => rfl

/-- Where there is a watcher, `Init` has started it. -/
theorem InHand.pending_eq_zero (hs : InHand s) (hmem : p ∈ s.places) : s.init.pending = 0 := by
  rcases Nat.eq_zero_or_pos s.init.pending with h | h
  · exact h
  · have hone : s.init.pending = 1 := by have := hs.holds; omega
    rw [hs.init hone] at hmem
    cases hmem

/-! ## One watcher moves -/

/-- A watcher that holds leaves no other to have died, and one that retries
none at all. -/
theorem InHand.died_eq {lease : ℕ} (hs : InHand s) (hp : s.places[i]? = some p)
    (hactive : p.holds = 1 ∨ p.retrying = 1) (hx : .died lease ∈ s.places.set i p') :
    .died lease = p' := by
  rcases hactive with hone | hone
  · rcases @eq_or_eq_zero_of_mem_set _ Place.holds _ p p' _ i hp
      (by have := hs.holds; omega) hx with h | h
    · exact h
    · cases h
  · rcases List.mem_or_eq_of_mem_set hx with h | h
    · have hquiet := hs.died lease h
      have := @le_tally _ Place.retrying _ p (List.mem_of_getElem? hp)
      unfold State.retrying at hquiet
      omega
    · exact h

/-- **One watcher moves while no other is in its retry loop**, and may start
the next one. The lease stays in one hand if no more is held than before;
whoever has handed over must leave a watcher of the lease. -/
theorem InHand.moved {leaseID : ℕ} {watched : Option ℕ} (hs : InHand s)
    (hp : s.places[i]? = some p) (hplaces : s'.places =
      s.places.set i p' ++ watched.toList.map .watching)
    (hleaseID : s'.leaseID = leaseID) (hinit : s'.init = s.init)
    (hdetached : s'.detached = s.detached) (hstopped : s'.stopped = s.stopped)
    (halone : s.retrying ≤ p.retrying) (hactive : p.holds = 1 ∨ p.retrying = 1)
    (hholds : p'.holds + watched.toList.length ≤ p.holds)
    (hlease : ∀ stage lease, p' = .renewing stage → stage.lease? = some lease → lease = leaseID)
    (hwatched : s.stopped = false → p'.HandedOver → .watching leaseID ∈ s'.places) :
    InHand s' := by
  have hpending := hs.pending_eq_zero (List.mem_of_getElem? hp)
  have hretrying := hs.retrying
  unfold State.retrying at halone hretrying
  have hset := @tally_set _ _ _ Place.retrying s.places p p' i hp
  have hsetHolds := @tally_set _ _ _ Place.holds s.places p p' i hp
  have hstarted := tally_retrying_started watched
  -- every other watcher is out of its retry loop
  have hother : ∀ x ∈ s'.places, x = p' ∨ x.retrying = 0 := by
    intro x hx
    rw [hplaces] at hx
    rcases List.mem_append.1 hx with hx | hx
    · exact eq_or_eq_zero_of_mem_set hp halone hx
    · obtain ⟨lease, -, rfl⟩ := mem_started hx
      exact Or.inr rfl
  have hle : p'.retrying ≤ 1 := by cases p' <;> simp [Place.retrying]
  refine ⟨?_, ?_, ?_, ?_, ?_, ?_, ?_, ?_⟩
  · have := hs.holds
    rw [hplaces, tally_append, tally_holds_started, hinit]
    omega
  · unfold State.retrying
    rw [hplaces, tally_append, hstarted]
    omega
  · rw [hdetached, hs.detached]
  · intro h
    rw [hinit, hpending] at h
    cases h
  · intro stage lease h hof
    rw [hinit] at h
    rw [h, Progress.pending, Stage.pending_of_lease? hof] at hpending
    cases hpending
  · intro stage lease hx hof
    rw [hleaseID]
    rcases hother _ hx with h | h
    · exact hlease stage lease h.symm hof
    · cases h
  · intro lease hx
    have hnew : .died lease = p' := by
      rw [hplaces] at hx
      rcases List.mem_append.1 hx with hx | hx
      · exact hs.died_eq hp hactive hx
      · obtain ⟨lease', -, h⟩ := mem_started hx
        cases h
    unfold State.retrying
    rw [hplaces, tally_append, hstarted, ← hnew]
    have hzero : (Place.died lease).retrying = 0 := rfl
    rw [← hnew, hzero] at hset
    omega
  · intro hrunning x hx hx'
    rw [hleaseID]
    rcases hother x hx with rfl | h
    · exact hwatched (by rw [← hstopped]; exact hrunning) hx'
    · rw [hx'.retrying_eq] at h
      cases h

/-! ## Each step -/

theorem getElem?_places {w : Watcher} (hw : s.watchers[i]? = some w) :
    s.places[i]? = some w.place := by
  rw [State.places, List.getElem?_map, hw]
  rfl

/-- The watchers behind a step of one of them. -/
theorem places_set {w : Watcher} {watched : Option ℕ}
    (h : s'.watchers = s.watchers.set i w ++ watched.toList.map .start) :
    s'.places = s.places.set i w.place ++ watched.toList.map .watching := by
  rw [State.places, h, List.map_append, List.map_set, List.map_map]
  rfl

/-- What the stages of a call can come to. -/
inductive Advances (leaseID : ℕ) : Stage → Reply → Effect → Prop
  | granted (lease : ℕ) :
    Advances leaseID .grant (.granted lease) ⟨lease, none, .running .granted⟩
  | read : Advances leaseID .granted .ok ⟨leaseID, none, .running (.keepAlive leaseID)⟩
  | keptAlive (lease : ℕ) :
    Advances leaseID (.keepAlive lease) .ok ⟨leaseID, none, .running (.receive lease)⟩
  | received (lease : ℕ) :
    Advances leaseID (.receive lease) .ok ⟨leaseID, some lease, .running .put⟩
  | stored : Advances leaseID .put .ok ⟨leaseID, none, .running .sync⟩
  | synced : Advances leaseID .sync .ok ⟨leaseID, none, .returned true⟩
  | failed {stage : Stage}
    (h : stage = .grant ∨ (∃ lease, stage = .keepAlive lease) ∨ stage = .put) :
    Advances leaseID stage .failed ⟨leaseID, none, .returned false⟩

theorem advances_of_eq {leaseID : ℕ} {stage : Stage} {r : Reply} {e : Effect}
    (h : advance leaseID stage r = some e) : Advances leaseID stage r e := by
  cases stage <;> cases r <;> simp only [advance, Option.some.injEq, reduceCtorEq] at h <;>
    subst h
  case grant.granted lease => exact .granted lease
  case grant.failed => exact .failed (Or.inl rfl)
  case granted.ok => exact .read
  case keepAlive.ok lease => exact .keptAlive lease
  case keepAlive.failed lease => exact .failed (Or.inr (Or.inl ⟨lease, rfl⟩))
  case receive.ok lease => exact .received lease
  case put.ok => exact .stored
  case put.failed => exact .failed (Or.inr (Or.inr rfl))
  case sync.ok => exact .synced

/-- **A renewal moves on.** The watcher is in its retry loop, so it is the
only one there. -/
theorem InHand.renewed {w : Watcher} {stage : Stage} {r : Reply} {e : Effect} (hs : InHand s)
    (hw : s.watchers[i]? = some w) (hplace : w.place = .renewing stage)
    (he : advance s.leaseID stage r = some e)
    (horder : InOrder grantLeaseMaxRetries s (.reply (.watcher i) r)) :
    InHand
      { s with
        leaseID := e.leaseID
        watchers := s.watchers.set i (w.after grantLeaseMaxRetries e.progress) ++
          e.watched.toList.map .start } := by
  have hp : s.places[i]? = some (.renewing stage) := by rw [getElem?_places hw, hplace]
  have hmem : .renewing stage ∈ s.places := List.mem_of_getElem? hp
  refine hs.moved hp (places_set rfl) rfl rfl rfl rfl hs.retrying (Or.inr rfl) ?_ ?_ ?_
  · cases advances_of_eq he with
    | failed hstage =>
      simp only [Watcher.after]
      split
      · exact Nat.zero_le _
      · -- it is tried again, so it has not got to its put
        rename_i hagain
        rcases hstage with rfl | ⟨lease, rfl⟩ | rfl
        · exact Nat.le_refl _
        · exact Nat.le_refl _
        · exact absurd (horder w hw hplace) hagain
    | _ => exact Nat.le_refl _
  · intro stage' lease hlease hof
    cases advances_of_eq he with
    | read =>
      cases hlease
      exact (Option.some.inj hof).symm
    | keptAlive lease' =>
      cases hlease
      exact hs.lease _ _ hmem hof
    | failed _ =>
      simp only [Watcher.after] at hlease
      split at hlease <;> cases hlease
    | _ => cases hlease <;> cases hof
  · intro hrunning hover
    rw [places_set rfl, List.mem_append]
    cases advances_of_eq he with
    | received lease =>
      rw [hs.lease _ lease hmem rfl]
      exact Or.inr (List.mem_singleton.2 rfl)
    | stored =>
      exact Or.inl (mem_set_of_ne hp (hs.watched hrunning _ hmem (Or.inl rfl)) (by simp))
    | failed _ =>
      simp only [Watcher.after] at hover
      split at hover <;> rcases hover with h | h <;> cases h
    | _ => rcases hover with h | h <;> cases h

/-- The lease is in one hand when it is `Init` or the first watcher that has
it. -/
theorem inHand_of_first {watched : Option ℕ} (hplaces : s.places = watched.toList.map .watching)
    (hdetached : s.detached = []) (hholds : s.init.pending + watched.toList.length ≤ 1)
    (hlease : ∀ stage lease, s.init = .running stage → stage.lease? = some lease →
      lease = s.leaseID) : InHand s where
  holds := by
    rw [hplaces, tally_holds_started]
    exact hholds
  retrying := by
    rw [State.retrying, hplaces, tally_retrying_started]
    exact Nat.zero_le _
  detached := hdetached
  init := by
    intro h
    rw [hplaces]
    cases watched with
    | none => rfl
    | some lease => simp [h] at hholds
  initLease := hlease
  lease := by
    intro stage lease h
    rw [hplaces] at h
    obtain ⟨lease', -, h⟩ := mem_started h
    cases h
  died := by
    intro lease h
    rw [hplaces] at h
    obtain ⟨lease', -, h⟩ := mem_started h
    cases h
  watched := by
    intro _ p h hover
    rw [hplaces] at h
    obtain ⟨lease', -, rfl⟩ := mem_started h
    cases hover.retrying_eq

/-- Behind its grant `Init` leaves the watchers and `leaseID` alone. -/
theorem InHand.init_behind {progress : Progress} (hs : InHand s) (h : progress.pending = 0) :
    InHand { s with init := progress } where
  holds := by
    have hholds := hs.holds
    dsimp only
    rw [h, Nat.zero_add]
    exact Nat.le_trans (Nat.le_add_left _ _) hholds
  retrying := hs.retrying
  detached := hs.detached
  init := by
    dsimp only
    rw [h]
    exact fun hone => (by cases hone)
  initLease := by
    intro stage lease hlease hof
    dsimp only at hlease
    rw [hlease, Progress.pending, Stage.pending_of_lease? hof] at h
    cases h
  lease := hs.lease
  died := hs.died
  watched := hs.watched

/-- **`Init` moves on.** As long as it has its watcher to start there is no
other. -/
theorem InHand.initialized {stage : Stage} {r : Reply} {e : Effect} (hs : InHand s)
    (hinit : s.init = .running stage) (he : advance s.leaseID stage r = some e) :
    InHand
      { s with
        leaseID := e.leaseID
        init := e.progress
        watchers := s.watchers ++ e.watched.toList.map .start } := by
  have hnone : stage.pending = 1 → s.watchers = [] := by
    intro h
    have hplaces := hs.init (by rw [hinit]; exact h)
    simpa [State.places] using hplaces
  cases advances_of_eq he with
  | granted lease =>
    rw [hnone rfl]
    refine @inHand_of_first _ none rfl hs.detached (Nat.le_refl _) ?_
    rintro _ _ ⟨⟩ hof
    cases hof
  | read =>
    rw [hnone rfl]
    refine @inHand_of_first _ none rfl hs.detached (Nat.le_refl _) ?_
    rintro _ _ ⟨⟩ hof
    exact (Option.some.inj hof).symm
  | keptAlive lease =>
    rw [hnone rfl]
    refine @inHand_of_first _ none rfl hs.detached (Nat.le_refl _) ?_
    rintro _ _ ⟨⟩ hof
    exact hs.initLease _ _ hinit hof
  | received lease =>
    rw [hnone rfl]
    refine @inHand_of_first _ (some lease) rfl hs.detached (Nat.le_refl _) ?_
    rintro _ _ ⟨⟩ hof
    cases hof
  | stored => simpa using @InHand.init_behind s (.running .sync) hs rfl
  | synced => simpa using @InHand.init_behind s (.returned true) hs rfl
  | failed _ => simpa using @InHand.init_behind s (.returned false) hs rfl

/-- A watcher in its select stays there, or leaves it for a stop channel. -/
theorem InHand.selected (hs : InHand s) (hp : s.places[i]? = some (.watching lease))
    (hplaces : s'.places = s.places.set i p') (hleaseID : s'.leaseID = s.leaseID)
    (hinit : s'.init = s.init) (hdetached : s'.detached = s.detached)
    (hstopped : s'.stopped = s.stopped)
    (hp' : p' = .watching lease ∨ s.stopped = true ∧ p' = .returned) : InHand s' := by
  have hmem : ∀ x ∈ s'.places, x ∈ s.places ∨ x = .returned := by
    intro x hx
    rw [hplaces] at hx
    rcases List.mem_or_eq_of_mem_set hx with h | rfl
    · exact Or.inl h
    · rcases hp' with rfl | ⟨-, rfl⟩
      · exact Or.inl (List.mem_of_getElem? hp)
      · exact Or.inr rfl
  have hset := @tally_set _ _ _ Place.retrying s.places _ p' i hp
  have hsetHolds := @tally_set _ _ _ Place.holds s.places _ p' i hp
  have hzero : p'.retrying = (Place.watching lease).retrying := by
    rcases hp' with rfl | ⟨-, rfl⟩ <;> rfl
  have hle : p'.holds ≤ (Place.watching lease).holds := by
    rcases hp' with rfl | ⟨-, rfl⟩
    · exact Nat.le_refl _
    · exact Nat.zero_le _
  have hretrying : s'.retrying = s.retrying := by
    unfold State.retrying
    rw [hplaces]
    omega
  refine ⟨?_, by rw [hretrying]; exact hs.retrying, by rw [hdetached, hs.detached], ?_, ?_, ?_, ?_,
    ?_⟩
  · have := hs.holds
    rw [hplaces, hinit]
    omega
  · intro h
    rw [hplaces, hs.init (by rw [← hinit]; exact h)]
    rfl
  · rw [hinit, hleaseID]
    exact hs.initLease
  · intro stage l hl hof
    rw [hleaseID]
    rcases hmem _ hl with h | h
    · exact hs.lease stage l h hof
    · cases h
  · intro l hl
    rw [hretrying]
    rcases hmem _ hl with h | h
    · exact hs.died l h
    · cases h
  · intro hrunning x hx hover
    rw [hstopped] at hrunning
    rcases hp' with rfl | ⟨h, -⟩
    · -- nobody has moved
      have hsame : s'.places = s.places := by
        obtain ⟨hi, hget⟩ := List.getElem?_eq_some_iff.1 hp
        rw [hplaces, ← hget, List.set_getElem_self]
      rw [hsame, hleaseID]
      rw [hsame] at hx
      exact hs.watched hrunning x hx hover
    · rw [hrunning] at h
      cases h

/-- Where a watcher can go by itself. -/
inductive Owns (stopped : Bool) : Place → Own → Place → Prop
  | response (lease : ℕ) : Owns stopped (.watching lease) .response (.watching lease)
  | nothing (lease : ℕ) : Owns stopped (.watching lease) .nothing (.renewing .grant)
  | closed (lease : ℕ) : Owns stopped (.watching lease) .closed (.died lease)
  | wakeDied (lease : ℕ) : Owns stopped (.died lease) .wake (.renewing .grant)
  | wakeSleeping : Owns stopped .sleeping .wake (.renewing .grant)
  | dead : Owns stopped .dying .dead .returned
  | leave (lease : ℕ) (h : stopped = true) : Owns stopped (.watching lease) .leave .returned

theorem owns_of_eq {w w' : Watcher} {a : Own} {stopped : Bool} (h : w.own stopped a = some w') :
    Owns stopped w.place a w'.place := by
  rcases w with ⟨p, n⟩
  cases a <;> cases p <;> simp only [Watcher.own, Option.some.injEq, reduceCtorEq, if_true,
    if_false] at h
  case response.watching lease => subst h; exact .response lease
  case nothing.watching lease => subst h; exact .nothing lease
  case closed.watching lease => subst h; exact .closed lease
  case wake.died lease => subst h; exact .wakeDied lease
  case wake.sleeping => subst h; exact .wakeSleeping
  case dead.dying => subst h; exact .dead
  case leave.watching lease =>
    split at h
    · rename_i hstopped
      obtain rfl := Option.some.inj h
      exact .leave lease hstopped
    · cases h

/-- **A watcher moves by itself.** -/
theorem InHand.own {ws : List Watcher} {a : Own} (hs : InHand s) (hp : s.places[i]? = some p)
    (ha : Owns s.stopped p a p')
    (hplaces : State.places { s with watchers := ws } = s.places.set i p')
    (horder : InOrder grantLeaseMaxRetries s (.own i a)) : InHand { s with watchers := ws } := by
  have hmoved : s.retrying ≤ p.retrying → p.holds = 1 ∨ p.retrying = 1 → p'.holds ≤ p.holds →
      (∀ stage, p' = .renewing stage → stage.lease? = none) → ¬ p'.HandedOver →
      InHand { s with watchers := ws } := by
    intro halone hactive hholds hcalled hover
    refine @InHand.moved s _ p p' i s.leaseID none hs hp (by rw [hplaces]; simp) rfl rfl rfl rfl
      halone hactive hholds ?_ fun _ h => absurd h hover
    intro stage lease hstage hof
    cases (hcalled stage hstage).symm.trans hof
  -- nobody else is in a retry loop when one is entered or left
  have hquiet : s.retrying = 0 → ∀ n, s.retrying ≤ n := fun h n => by rw [h]; exact Nat.zero_le n
  cases ha with
  | response lease => exact hs.selected hp hplaces rfl rfl rfl rfl (Or.inl rfl)
  | nothing lease =>
    exact hmoved (hquiet horder _) (Or.inl rfl) (Nat.le_refl _) (by simp [Stage.lease?])
      (by simp [Place.HandedOver])
  | closed lease =>
    exact hmoved (hquiet horder _) (Or.inl rfl) (Nat.le_refl _) (by simp [Stage.lease?])
      (by simp [Place.HandedOver])
  | wakeDied lease =>
    exact hmoved (hquiet (hs.died lease (List.mem_of_getElem? hp)) _) (Or.inl rfl)
      (Nat.le_refl _) (by simp [Stage.lease?])
      (by simp [Place.HandedOver])
  | wakeSleeping =>
    exact hmoved hs.retrying (Or.inl rfl) (Nat.le_refl _) (by simp [Stage.lease?])
      (by simp [Place.HandedOver])
  | dead =>
    exact hmoved hs.retrying (Or.inr rfl) (Nat.le_refl _) (by simp [Stage.lease?])
      (by simp [Place.HandedOver])
  | leave lease h => exact hs.selected hp hplaces rfl rfl rfl rfl (Or.inr ⟨h, rfl⟩)

/-- **Each step in order leaves the lease in one hand.** -/
theorem inHand_step {a : Action} (hs : InHand s) (horder : InOrder grantLeaseMaxRetries s a)
    (h : (machine grantLeaseMaxRetries).step s a = some s') : InHand s' := by
  simp only [machine] at h
  cases a with
  | reply owner r =>
    cases owner with
    | init =>
      simp only [step] at h
      split at h
      · rename_i stage hinit
        obtain ⟨e, he, rfl⟩ := Option.map_eq_some_iff.1 h
        exact hs.initialized hinit he
      · cases h
    | watcher i =>
      simp only [step] at h
      split at h
      · rename_i w hw
        split at h
        · rename_i stage hplace
          obtain ⟨e, he, rfl⟩ := Option.map_eq_some_iff.1 h
          exact hs.renewed hw hplace he horder
        · cases h
      · cases h
    | detached j =>
      simp only [step, hs.detached, List.getElem?_nil] at h
      cases h
  | own i a =>
    simp only [step] at h
    split at h
    · rename_i w hw
      obtain ⟨w', hw', rfl⟩ := Option.map_eq_some_iff.1 h
      exact hs.own (getElem?_places hw) (owns_of_eq hw') List.map_set horder
    · cases h
  | timeout i => exact absurd horder id
  | close =>
    obtain rfl := Option.some.inj h
    exact
      { holds := hs.holds
        retrying := hs.retrying
        detached := hs.detached
        init := hs.init
        initLease := hs.initLease
        lease := hs.lease
        died := hs.died
        watched := fun h => (by cases h) }

/-! ## One watcher -/

theorem InHand.alive_le (hs : InHand s) : s.alive ≤ 1 + s.retrying := by
  have hsum : s.alive ≤ tally (fun p : Place => p.holds + p.retrying) s.places :=
    tally_mono Place.alive_le
  have hsplit : tally (fun p : Place => p.holds + p.retrying) s.places =
      tally Place.holds s.places + tally Place.retrying s.places := tally_add
  have hholds := hs.holds
  unfold State.retrying
  omega

/-- **At most one lease watcher.** In every run in which the lease is handed
over in order, whatever etcd answers, at most one watcher is running besides
one in its retry loop; and when a retry loop returns behind a renewal that
succeeded, with no stop channel closed, one watcher is left and it watches
the lease in `leaseID`. -/
theorem one_watcher (grantLeaseMaxRetries : ℤ) (acts : List Action) (s : State)
    (horder : (machine grantLeaseMaxRetries).Meets (InOrder grantLeaseMaxRetries) .start acts)
    (hrun : (machine grantLeaseMaxRetries).run .start acts = some s) :
    s.alive ≤ 1 + min 1 s.retrying ∧
    ∀ i w s', s.watchers[i]? = some w → w.place = .renewing .sync →
      (machine grantLeaseMaxRetries).step s (.reply (.watcher i) .ok) = some s' →
      s.stopped = false → s'.alive = 1 ∧ .watching s'.leaseID ∈ s'.places := by
  have hs : InHand s := Machine.run_invariant
    (fun _ _ _ hs horder hstep => inHand_step hs horder hstep) inHand_start horder hrun
  refine ⟨?_, ?_⟩
  · have hle := hs.alive_le
    have hone := hs.retrying
    omega
  · intro i w s' hw hplace hstep hrunning
    have hs' : InHand s' :=
      @inHand_step grantLeaseMaxRetries s s' (.reply (.watcher i) .ok) hs trivial hstep
    have hp : s.places[i]? = some (.renewing .sync) := by rw [getElem?_places hw, hplace]
    have hwatched := hs.watched hrunning _ (List.mem_of_getElem? hp) (Or.inr rfl)
    obtain rfl : s' = { s with watchers := s.watchers.set i { w with place := .returned } } := by
      simp only [machine, step, hw, hplace, advance, Option.map_some, Option.toList_none,
        List.map_nil, List.append_nil, Option.some.injEq] at hstep
      exact hstep.symm
    have hplaces :
        State.places { s with watchers := s.watchers.set i { w with place := .returned } } =
          s.places.set i .returned := List.map_set
    have hleft : .watching s.leaseID ∈ s.places.set i .returned :=
      mem_set_of_ne hp hwatched (by simp)
    -- the loop that returns was the only one
    have hretrying := @tally_set _ _ _ Place.retrying s.places _ .returned i hp
    have hone := hs.retrying
    have halive := hs'.alive_le
    have hmem := @le_tally _ Place.alive _ _ hleft
    rw [← hplaces] at hleft hmem hretrying
    refine ⟨?_, hleft⟩
    simp only [State.retrying, State.alive, Place.retrying, Place.alive] at *
    omega

/-- `Init` gets its lease, and puts and syncs the server. -/
def bootstrap : List Action :=
  .reply .init (.granted 1) :: List.replicate 5 (.reply .init .ok)

/-- The first watcher's channel dies, its first renewal fails before it
starts a watcher, and its second gets as far as the sync. -/
def handover : List Action := bootstrap ++
  [.own 0 .response, .own 0 .closed, .own 0 .wake, .reply (.watcher 0) (.granted 2),
    .reply (.watcher 0) .ok, .reply (.watcher 0) .failed, .own 0 .wake,
    .reply (.watcher 0) (.granted 3), .reply (.watcher 0) .ok, .reply (.watcher 0) .ok,
    .reply (.watcher 0) .ok, .reply (.watcher 0) .ok]

/-- The watcher that is left watches the lease of the renewal that
succeeded. -/
theorem one_watcher_handover :
    ∃ s s', (machine 3).run .start handover = some s ∧ s.alive ≤ 1 + min 1 s.retrying ∧
      (machine 3).step s (.reply (.watcher 0) .ok) = some s' ∧ s'.alive = 1 ∧
      .watching s'.leaseID ∈ s'.places := by
  obtain ⟨hle, hleft⟩ := one_watcher 3 handover _ (by decide) rfl
  exact ⟨_, _, rfl, hle, rfl, hleft 0 _ _ rfl rfl rfl rfl⟩

/-- A renewal fails at its put, and the next one succeeds. -/
def failedPut : List Action := bootstrap ++
  [.own 0 .closed, .own 0 .wake, .reply (.watcher 0) (.granted 2), .reply (.watcher 0) .ok,
    .reply (.watcher 0) .ok, .reply (.watcher 0) .ok, .reply (.watcher 0) .failed, .own 0 .wake,
    .reply (.watcher 0) (.granted 3), .reply (.watcher 0) .ok, .reply (.watcher 0) .ok,
    .reply (.watcher 0) .ok, .reply (.watcher 0) .ok, .reply (.watcher 0) .ok]

/-- The new lease's channel dies while the server is put. -/
def diedAtPut : List Action := bootstrap ++
  [.own 0 .closed, .own 0 .wake, .reply (.watcher 0) (.granted 2), .reply (.watcher 0) .ok,
    .reply (.watcher 0) .ok, .reply (.watcher 0) .ok, .own 1 .closed, .own 1 .wake,
    .reply (.watcher 1) (.granted 3), .reply (.watcher 1) .ok, .reply (.watcher 1) .ok,
    .reply (.watcher 1) .ok]

/-- **Watchers are left over.** Where a put fails and is tried again, the
first watcher returns behind its renewal and leaves two watchers, of leases 2
and 3; and where the channel dies early, there are three watchers and two
of them are in their retry loops. Nothing has timed out. -/
theorem watchers_leak :
    (∃ s, (machine 3).run .start failedPut = some s ∧
      s.places = [.returned, .watching 2, .watching 3] ∧ s.alive = 2 ∧ s.retrying = 0) ∧
    ∃ s, (machine 3).run .start diedAtPut = some s ∧
      s.places = [.renewing .put, .renewing .put, .watching 3] ∧ s.alive = 3 ∧ s.retrying = 2 :=
  ⟨⟨_, rfl, rfl, rfl, rfl⟩, ⟨_, rfl, rfl, rfl, rfl⟩⟩

end Lease

end Discovery

end Nrpc
