import Nrpc.App.Announced
import Nrpc.App.Model.Termination
import Nrpc.Discovery.GiveUp
/-!
# One function at two levels

`Start` and `watchLeaseChan` each stand in two models: one that has what a
property of theirs needs and no more, and one that says how they get there.

Where no hook registers anything, `Start` with its hooks and its components
calls the modules as `Start` alone does (`start_of_silent_hooks`). And the
watchers around `dieChan`, which renew a lease in one step, take part in every
run of the watchers that grant, keep alive, put and sync: a renewal that goes
on is no step of theirs, its end is one, and so is the start of the next
watcher (`parties_follow_watchers`). Two steps of the watchers are also steps
of others: the send on `dieChan`, where there is one, meets the receive of a
party (`leaseSend_of_dead`), and the stop channels are closed while `Start`
shuts the modules down (`shutdownModules_of_close`).
-/

namespace Nrpc

namespace App

/-! ## `Start` -/

section Start

variable {K M : Type} {b : Boot K M} {initErr : GoString → Option GoString}

/-- The calls of modules among the calls of `Start`. -/
def moduleCalls (cs : List (Call K M)) : List (ModuleCall M) :=
  cs.filterMap fun
    | .module phase w => some ⟨phase, w⟩
    | .component .. | .register .. => none

/-- A call of a module, as a call of `Start`. -/
def ModuleCall.call (c : ModuleCall M) : Call K M := .module c.phase c.wrapper

theorem moduleCalls_map (cs : List (ModuleCall M)) :
    moduleCalls (cs.map (ModuleCall.call (K := K))) = cs := by
  simp [moduleCalls, List.filterMap_map, Function.comp_def, ModuleCall.call]

theorem moduleCalls_append (cs ds : List (Call K M)) :
    moduleCalls (cs ++ ds) = moduleCalls cs ++ moduleCalls ds :=
  List.filterMap_append ..

/-- Hooks that register nothing. -/
def silent : Call K M → Hook K M := fun _ => ⟨[], []⟩

namespace Boot

/-- The app behind further calls. -/
def plus (b : Boot K M) (cs : List (Call K M)) : Boot K M := { b with calls := b.calls ++ cs }

theorem run_nothing (b : Boot K M) : (⟨[], []⟩ : Hook K M).run b = b := by
  simp [Hook.run, registerAll]

theorem call_silent (b : Boot K M) (c : Call K M) : b.call silent c = b.plus [c] :=
  run_nothing _

theorem plus_nil (b : Boot K M) : b.plus [] = b := by
  simp [plus]

theorem plus_plus (b : Boot K M) (cs ds : List (Call K M)) :
    (b.plus cs).plus ds = b.plus (cs ++ ds) := by
  simp [plus]

/-- A loop over a slice makes its calls. -/
theorem sweep_silent (b : Boot K M) (cs : List (Call K M)) : b.sweep silent cs = b.plus cs := by
  induction cs generalizing b with
  | nil => exact (plus_nil b).symm
  | cons c cs ih => rw [sweep_cons, call_silent, ih, plus_plus, List.singleton_append]

/-- A loop down a slice that the calls leave alone visits it in reverse. -/
theorem countdown_silent {α : Type} {slice : Boot K M → List α}
    (hslice : ∀ b cs, slice (b.plus cs) = slice b) (c : α → Call K M) {i : ℕ}
    (hi : i ≤ (slice b).length) :
    countdown silent slice c i b = .ok (b.plus (((slice b).take i).reverse.map c)) := by
  induction i generalizing b with
  | zero => simp [countdown, plus]
  | succ i ih =>
    have hget : (slice b)[i]? = some (slice b)[i] := List.getElem?_eq_getElem hi
    have hnext : i ≤ (slice (b.plus [c (slice b)[i]])).length := by
      rw [hslice]
      omega
    rw [countdown, hget]
    simp only [call_silent]
    rw [ih hnext, hslice, plus_plus, List.take_succ_eq_append_getElem hi]
    simp only [List.reverse_append, List.reverse_singleton, List.singleton_append, List.map_cons]

/-- Two such loops, one after the other. -/
theorem countdown_twice {α : Type} {slice : Boot K M → List α}
    (hslice : ∀ b cs, slice (b.plus cs) = slice b) (c d : α → Call K M) {b : Boot K M} {n : ℕ}
    (hn : n = (slice b).length) :
    ∃ b', countdown silent slice c n b = .ok b' ∧ slice b' = slice b ∧
      countdown silent slice d n b' =
        .ok (b.plus ((slice b).reverse.map c ++ (slice b).reverse.map d)) := by
  subst hn
  have hwhole : ∀ c : α → Call K M, ∀ cs, countdown silent slice c (slice b).length (b.plus cs) =
      .ok (b.plus (cs ++ (slice b).reverse.map c)) := by
    intro c cs
    rw [countdown_silent hslice c (by rw [hslice]), hslice, List.take_length, plus_plus]
  refine ⟨b.plus ((slice b).reverse.map c), ?_, hslice _ _, hwhole d _⟩
  have hfirst := hwhole c []
  rwa [plus_nil, List.nil_append] at hfirst

theorem shutdownModules_silent (b : Boot K M) : shutdownModules silent b =
    .ok (b.plus (b.arr.reverse.map (.module .beforeShutdown) ++
      b.arr.reverse.map (.module .shutdown))) := by
  have harr : ∀ (b : Boot K M) cs, (b.plus cs).arr = b.arr := fun _ _ => rfl
  obtain ⟨b', hfirst, hsame, hsecond⟩ :=
    countdown_twice harr (.module .beforeShutdown) (.module .shutdown) (b := b) rfl
  rw [shutdownModules, hfirst]
  show countdown silent arr _ b'.arr.length b' = _
  rw [hsame, hsecond]

/-- The components are shut down without a call of a module. -/
theorem shutdownComponents_silent (b : Boot K M) :
    ∃ cs, shutdownComponents silent b = .ok (b.plus cs) ∧ moduleCalls cs = [] := by
  have hcomp : ∀ (b : Boot K M) cs, (b.plus cs).remoteComp = b.remoteComp := fun _ _ => rfl
  obtain ⟨b', hfirst, -, hsecond⟩ :=
    countdown_twice hcomp (.component .beforeShutdown) (.component .shutdown) (b := b) rfl
  refine ⟨b.remoteComp.reverse.map (.component .beforeShutdown) ++
    b.remoteComp.reverse.map (.component .shutdown), ?_, ?_⟩
  · rw [shutdownComponents, hfirst]
    exact hsecond
  · simp [moduleCalls, List.filterMap_append, List.filterMap_map]

/-- And started without one. -/
theorem startupComponents_silent (remoteService : Bool) (b : Boot K M) :
    ∃ cs, startupComponents silent remoteService b = b.plus cs ∧ moduleCalls cs = [] := by
  simp only [startupComponents, sweep_silent, plus_plus]
  -- a component that is not registered is no call either
  cases remoteService <;>
    exact ⟨_, rfl, by simp [moduleCalls, List.filterMap_append, List.filterMap_map]⟩

/-- The first loop of `startModules`, in both models. -/
theorem initModules_silent (initErr : GoString → Option GoString) (ws : List (ModuleWrapper M))
    (b : Boot K M) :
    (initLoop initErr ws = .ok (ws.map (ModuleCall.mk .init)) ∧
      initModules silent initErr ws b = .ok (b.plus (ws.map (.module .init)))) ∨
    ∃ e b', initLoop initErr ws = .err e ∧
      initModules silent initErr ws b = .error (.fatal, b') := by
  induction ws generalizing b with
  | nil => exact Or.inl ⟨rfl, by simp [initModules, plus]⟩
  | cons w ws ih =>
    cases herr : initErr w.name with
    | some err =>
      refine Or.inr ⟨lit "error starting module " ++ w.name ++ lit ", error: " ++ err,
        b.call silent (.module .init w), ?_, ?_⟩
      · simp only [initLoop, herr]
      · simp only [initModules, herr]
    | none =>
      rcases ih (b.plus [.module .init w]) with ⟨hloop, hmodules⟩ | ⟨e, b', hloop, hmodules⟩
      · refine Or.inl ⟨by simp [initLoop, herr, hloop], ?_⟩
        simp only [initModules, herr, call_silent, hmodules, plus_plus]
        simp
      · exact Or.inr ⟨e, b', by simp [initLoop, herr, hloop],
          by simp only [initModules, herr, call_silent, hmodules]⟩

end Boot

/-- **The modules from their start to their end**, none of which fails. -/
theorem modules_silent (hloop : Boot.initModules silent initErr b.arr b =
    .ok (b.plus (b.arr.map (.module .init)))) :
    (do
      let b ← Boot.startModules silent initErr b
      Boot.shutdownModules silent ((⟨[], []⟩ : Hook K M).run b)) =
      .ok (b.plus ((lifecycle b.arr).map ModuleCall.call)) := by
  have hup : Boot.startModules silent initErr b =
      .ok (b.plus (b.arr.map (.module .init) ++ b.arr.map (.module .afterInit))) := by
    rw [Boot.startModules, hloop]
    show Except.ok (Boot.sweep silent (b.plus _) _) = _
    rw [Boot.sweep_silent, Boot.plus_plus]
    rfl
  rw [hup]
  show Boot.shutdownModules silent ((⟨[], []⟩ : Hook K M).run (b.plus _)) = _
  rw [Boot.run_nothing, Boot.shutdownModules_silent, Boot.plus_plus]
  simp only [lifecycle, List.map_append, List.map_map]
  rfl

/-- The modules of `Start` are registered or refused. -/
theorem registerOwn_ne_panic (own : OwnModules M) (app : Modules M) :
    registerOwn own app ≠ .panic := by
  have hfatal : ∀ text (p : Option GoString × Modules M), orFatal text p ≠ .panic := by
    rintro text ⟨_ | err, app⟩ h <;> cases h
  intro h
  rcases Outcome.bind_eq_panic_iff.1 h with h | ⟨app₁, -, h⟩
  · exact hfatal _ _ h
  · rcases Outcome.bind_eq_panic_iff.1 h with h | ⟨app₂, -, h⟩
    · exact hfatal _ _ h
    · exact hfatal _ _ h

/-- **Where no hook registers anything, `Start` calls its modules as they
see it**, whatever components there are; and it ends at the same `Fatal`. -/
theorem start_of_silent_hooks (initErr : GoString → Option GoString) (own : OwnModules M)
    (remoteService : Bool) (b : Boot K M) :
    (∃ cs b', start initErr own b.modules = .ok cs ∧
      Boot.start silent initErr own remoteService ⟨[], []⟩ b = .ok b' ∧
      moduleCalls b'.calls = moduleCalls b.calls ++ cs) ∨
    ∃ e b', start initErr own b.modules = .err e ∧
      Boot.start silent initErr own remoteService ⟨[], []⟩ b = .error (.fatal, b') := by
  cases hown : registerOwn own b.modules with
  | panic => exact absurd hown (registerOwn_ne_panic own b.modules)
  | err e => exact Or.inr ⟨e, b, by simp [start, hown], by simp [Boot.start, hown]⟩
  | ok modules =>
    obtain ⟨cs, hcomps, hnone⟩ :=
      Boot.startupComponents_silent remoteService { b with modules := modules }
    -- the app when its modules are started
    let up : Boot K M := Boot.plus { b with modules := modules } cs
    have harr : up.arr = modules.modulesArr := rfl
    rcases Boot.initModules_silent initErr up.arr up with
      ⟨hloop, hmodules⟩ | ⟨e, b', hloop, hmodules⟩
    · have hmodules' := modules_silent hmodules
      obtain ⟨ds, hdown, hnone'⟩ :=
        Boot.shutdownComponents_silent (up.plus ((lifecycle up.arr).map ModuleCall.call))
      refine Or.inl ⟨lifecycle up.arr, up.plus ((lifecycle up.arr).map ModuleCall.call ++ ds),
        ?_, ?_, ?_⟩
      · rw [harr] at hloop ⊢
        simp only [start, hown, startModules, hloop, shutdownModules_eq, Outcome.ok_bind,
          Outcome.pure_eq, lifecycle]
      · simp only [Boot.start, hown, hcomps]
        show (Boot.startModules silent initErr up >>= fun b =>
          Boot.shutdownModules silent ((⟨[], []⟩ : Hook K M).run b) >>= _) = _
        rw [← bind_assoc, hmodules', ← Boot.plus_plus]
        exact hdown
      · show moduleCalls (b.calls ++ cs ++ ((lifecycle up.arr).map ModuleCall.call ++ ds)) = _
        simp only [moduleCalls_append, moduleCalls_map, hnone, hnone', List.append_nil]
    · rw [harr] at hloop
      refine Or.inr ⟨e, b', by simp [start, hown, startModules, hloop], ?_⟩
      simp only [Boot.start, hown, hcomps, Boot.startModules]
      show ((Boot.initModules silent initErr up.arr up >>= _) >>= _) = _
      rw [hmodules]
      rfl

end Start

/-! ## `watchLeaseChan` -/

section Watchers

open Discovery.Lease (Watcher Owner Stage Reply Effect Own Advances moves_of_step)

variable {grantLeaseMaxRetries : ℤ} {app : State} {ws : List Watcher} {w : Watcher}
  {stopped : Bool} {i : ℕ}

/-- A watcher as `dieChan` knows it. -/
def leasePc (w : Watcher) : LeasePc :=
  match w.place with
  | .watching _ => .watching w.failedGrantLeaseAttempts
  | .died _ | .renewing _ | .sleeping => .renewing w.failedGrantLeaseAttempts
  | .dying => .sending
  | .returned => .returned

/-- The parties around `dieChan`, with these watchers among them. -/
def State.withWatchers (app : State) (ws : List Watcher) (stopped : Bool) : State :=
  { app with leases := ws.map leasePc, stopChan := stopped }

/-- The stage a call stands at. -/
def stageOf (s : Discovery.Lease.State) : Owner → Option Stage
  | .init =>
    match s.init with
    | .running stage => some stage
    | .returned _ => none
  | .watcher i =>
    s.watchers[i]?.bind fun w =>
      match w.place with
      | .renewing stage => some stage
      | _ => none
  | .detached j => s.detached[j]?

/-- A renewal ends for the watcher that waits for it. -/
def renewalEnds (e : LeaseEvent) : Owner → List Action
  | .watcher i => [.lease i e]
  | .init | .detached _ => []

/-- The steps of the parties at the reply to a call. -/
def replySteps (owner : Owner) : Stage → Reply → List Action
  | .receive _, .ok => [.grantLease]
  | .sync, .ok => renewalEnds .renewed owner
  | _, .failed => renewalEnds .failed owner
  | _, _ => []

/-- The steps of the parties that a step of the watchers is. -/
def partySteps (s : Discovery.Lease.State) : Discovery.Lease.Action → List Action
  | .reply owner r => (stageOf s owner).elim [] (replySteps owner · r)
  | .own i .response => [.lease i .keptAlive]
  | .own i .nothing | .own i .closed => [.lease i .lost]
  | .own i .leave => [.leaseStop i]
  | .timeout i => [.lease i .timedOut]
  | .own _ .wake | .own _ .dead | .close => []

/-- A step of the watchers alone: it neither closes a stop channel nor meets
a receiver of `dieChan`. -/
def Alone : Discovery.Lease.Action → Prop
  | .own _ .dead | .close => False
  | _ => True

theorem ended_withWatchers : (app.withWatchers ws stopped).ended = app.ended := rfl

theorem leases_withWatchers (hw : ws[i]? = some w) :
    (app.withWatchers ws stopped).leases[i]? = some (leasePc w) := by
  simp [State.withWatchers, hw]

/-- Who receives does not depend on the watchers. -/
theorem receive_withWatchers {app' : State} {r : Receiver} (h : receive app r = some app') :
    receive (app.withWatchers ws stopped) r = some (app'.withWatchers ws stopped) := by
  cases r with
  | start =>
    simp only [receive, Option.ite_none_right_eq_some, Option.some.injEq] at h
    obtain ⟨hstart, rfl⟩ := h
    exact if_pos hstart
  | shutdown =>
    simp only [receive, Option.ite_none_right_eq_some, Option.some.injEq] at h
    obtain ⟨hshutdown, rfl⟩ := h
    exact if_pos hshutdown

/-- One watcher moves on. -/
theorem watch_withWatchers (w' : Watcher) :
    (app.withWatchers ws stopped).watch i (leasePc w') =
      app.withWatchers (ws.set i w') stopped := by
  simp [State.withWatchers, State.watch, List.map_set]

/-- A watcher that moves within its renewal stays where it is for the
others. -/
theorem withWatchers_set {w' : Watcher} (hw : ws[i]? = some w) (hpc : leasePc w' = leasePc w) :
    app.withWatchers (ws.set i w') stopped = app.withWatchers ws stopped := by
  obtain ⟨hi, rfl⟩ := List.getElem?_eq_some_iff.1 hw
  have hsame : (ws.set i w').map leasePc = ws.map leasePc := by
    rw [List.map_set, hpc, ← List.getElem_map leasePc, List.set_getElem_self]
    rwa [List.length_map]
  rw [State.withWatchers, hsame, State.withWatchers]

section Steps

variable (hended : app.ended = none)
include hended

theorem follow_lease {w' : Watcher} {e : LeaseEvent} (hw : ws[i]? = some w)
    (he : watchLease ⟨grantLeaseMaxRetries⟩ (leasePc w) e = some (leasePc w')) :
    (parties ⟨grantLeaseMaxRetries⟩).run (app.withWatchers ws stopped) [.lease i e] =
      some (app.withWatchers (ws.set i w') stopped) := by
  have hstep : step ⟨grantLeaseMaxRetries⟩ (app.withWatchers ws stopped) (.lease i e) =
      some (app.withWatchers (ws.set i w') stopped) := by
    simp only [step, ended_withWatchers, hended, leases_withWatchers hw, Option.isSome_none,
      Bool.false_eq_true, if_false, Option.bind_some, he, Option.map_some, watch_withWatchers]
  exact Machine.run_cons_eq_some_iff.2 ⟨_, hstep, rfl⟩

theorem follow_grant (lease : ℕ) :
    (parties ⟨grantLeaseMaxRetries⟩).run (app.withWatchers ws stopped) [.grantLease] =
      some (app.withWatchers (ws ++ [.start lease]) stopped) := by
  have hstep : step ⟨grantLeaseMaxRetries⟩ (app.withWatchers ws stopped) .grantLease =
      some (app.withWatchers (ws ++ [.start lease]) stopped) := by
    simp [step, hended, State.withWatchers, leasePc, Watcher.start]
  exact Machine.run_cons_eq_some_iff.2 ⟨_, hstep, rfl⟩

/-- A call nobody of the watchers waits for. -/
theorem follow_call {owner : Owner} {stage : Stage} {r : Reply} {e : Effect} {leaseID : ℕ}
    (hnobody : ∀ e, renewalEnds e owner = []) (he : Advances leaseID stage r e) :
    (parties ⟨grantLeaseMaxRetries⟩).run (app.withWatchers ws stopped) (replySteps owner stage r) =
      some (app.withWatchers (ws ++ e.watched.toList.map .start) stopped) := by
  cases he with
  | received lease => exact follow_grant hended lease
  | failed h =>
    have hsteps : replySteps owner stage .failed = [] := by
      rcases h with rfl | ⟨lease, rfl⟩ | rfl <;> exact hnobody .failed
    rw [hsteps]
    simp [Machine.run]
  | synced =>
    rw [replySteps, hnobody]
    simp [Machine.run]
  | _ => simp [replySteps, Machine.run]

/-- **A renewal**: it goes on, starts the next watcher on its way, and ends
the wait of its own. -/
theorem follow_renewal {stage : Stage} {r : Reply} {e : Effect} {leaseID : ℕ}
    (hw : ws[i]? = some w) (hplace : w.place = .renewing stage)
    (he : Advances leaseID stage r e) :
    (parties ⟨grantLeaseMaxRetries⟩).run (app.withWatchers ws stopped)
        (replySteps (.watcher i) stage r) =
      some (app.withWatchers (ws.set i (w.after grantLeaseMaxRetries e.progress) ++
        e.watched.toList.map .start) stopped) := by
  have hpc : leasePc w = .renewing w.failedGrantLeaseAttempts := by
    simp only [leasePc, hplace]
  have hgoesOn : ∀ stage', leasePc (w.after grantLeaseMaxRetries (.running stage')) = leasePc w :=
    fun stage' => hpc.symm
  cases he with
  | received lease =>
    rw [← withWatchers_set hw (hgoesOn .put)]
    exact follow_grant hended lease
  | synced =>
    rw [Option.toList_none, List.map_nil, List.append_nil]
    exact follow_lease hended hw (by rw [hpc]; rfl)
  | failed h =>
    have hsteps : replySteps (.watcher i) stage .failed = [.lease i .failed] := by
      rcases h with rfl | ⟨lease, rfl⟩ | rfl <;> rfl
    rw [hsteps, Option.toList_none, List.map_nil, List.append_nil]
    refine follow_lease hended hw ?_
    rw [hpc]
    simp only [watchLease, Watcher.after, leasePc]
    push_cast
    split <;> rfl
  | _ =>
    rw [Option.toList_none, List.map_nil, List.append_nil, withWatchers_set hw (hgoesOn _)]
    rfl

/-- **A watcher outside of its renewals.** -/
theorem follow_own {w' : Watcher} {act : Own} (hw : ws[i]? = some w)
    (hown : w.own stopped act = some w') (hact : act ≠ .dead) (s : Discovery.Lease.State) :
    (parties ⟨grantLeaseMaxRetries⟩).run (app.withWatchers ws stopped) (partySteps s (.own i act)) =
      some (app.withWatchers (ws.set i w') stopped) := by
  rcases w with ⟨place, n⟩
  cases act <;> cases place <;> simp only [Watcher.own, Option.some.injEq, reduceCtorEq, if_false]
    at hown
  case response.watching lease =>
    subst hown
    exact follow_lease hended hw rfl
  case nothing.watching lease =>
    subst hown
    exact follow_lease hended hw rfl
  case closed.watching lease =>
    subst hown
    exact follow_lease hended hw rfl
  case wake.died lease =>
    subst hown
    rw [withWatchers_set hw]
    all_goals rfl
  case wake.sleeping =>
    subst hown
    rw [withWatchers_set hw]
    all_goals rfl
  case dead.dying => exact absurd rfl hact
  case leave.watching lease =>
    split at hown
    · rename_i hstopped
      obtain rfl := Option.some.inj hown
      have hchan : (app.withWatchers ws stopped).stopChan = true := hstopped
      have hstep : step ⟨grantLeaseMaxRetries⟩ (app.withWatchers ws stopped) (.leaseStop i) =
          some (app.withWatchers (ws.set i ⟨.returned, n⟩) stopped) := by
        simp only [step, ended_withWatchers, hended, leases_withWatchers hw, leasePc, hchan,
          Option.isSome_none, Bool.false_eq_true, if_false, if_true, ← watch_withWatchers]
      exact Machine.run_cons_eq_some_iff.2 ⟨_, hstep, rfl⟩
    · cases hown

/-- **A step of the watchers alone is some steps of the parties.** -/
theorem parties_follow_step {s s' : Discovery.Lease.State} {a : Discovery.Lease.Action}
    (ha : Alone a) (hstep : Discovery.Lease.step grantLeaseMaxRetries s a = some s') :
    (parties ⟨grantLeaseMaxRetries⟩).run (app.withWatchers s.watchers s.stopped) (partySteps s a) =
      some (app.withWatchers s'.watchers s'.stopped) := by
  cases moves_of_step hstep with
  | init hinit he =>
    simp only [partySteps, stageOf, hinit, Option.elim_some]
    exact follow_call hended (fun _ => rfl) he
  | detached hj he =>
    simp only [partySteps, stageOf, hj, Option.elim_some]
    exact follow_call hended (fun _ => rfl) he
  | renewed hw hplace he =>
    simp only [partySteps, stageOf, hw, hplace, Option.bind_some, Option.elim_some]
    exact follow_renewal hended hw hplace he
  | own hw hown =>
    refine follow_own hended hw hown ?_ s
    rintro rfl
    exact ha
  | timedOut hw hplace =>
    refine follow_lease hended hw ?_
    simp only [leasePc, hplace, watchLease]
  | closed => exact ha.elim

end Steps

/-- **The parties follow every run of the watchers alone.** -/
theorem parties_follow_watchers (hended : app.ended = none) {s s' : Discovery.Lease.State}
    {as : List Discovery.Lease.Action} (has : ∀ a ∈ as, Alone a)
    (hrun : (Discovery.Lease.machine grantLeaseMaxRetries).run s as = some s') :
    (parties ⟨grantLeaseMaxRetries⟩).run (app.withWatchers s.watchers s.stopped)
        ((Discovery.Lease.machine grantLeaseMaxRetries).observe partySteps s as) =
      some (app.withWatchers s'.watchers s'.stopped) :=
  Machine.run_simulates (I := fun _ => True) (G := fun _ a => Alone a)
    (fun s : Discovery.Lease.State => app.withWatchers s.watchers s.stopped)
    (fun _ _ _ _ _ _ => trivial) (fun _ _ _ _ ha hstep => parties_follow_step hended ha hstep)
    trivial (Machine.meets_of_forall fun a ha _ => has a ha) hrun

/-- **A watcher tells the application**, at a receive of one of the other
parties. -/
theorem leaseSend_of_dead {app' : State} {r : Receiver} {s s' : Discovery.Lease.State}
    (hended : app.ended = none) (hopen : app.closed = false)
    (hreceive : receive app r = some app')
    (hstep : Discovery.Lease.step grantLeaseMaxRetries s (.own i .dead) = some s') :
    step ⟨grantLeaseMaxRetries⟩ (app.withWatchers s.watchers s.stopped) (.leaseSend i r) =
      some (app'.withWatchers s'.watchers s'.stopped) := by
  cases moves_of_step hstep with
  | @own _ w w' _ hw hown =>
    obtain ⟨-, -, -, hdying, htold⟩ := Discovery.Lease.own_counts hown
    have hsending : leasePc w = .sending := by simp only [leasePc, hdying.2 rfl]
    have hgone : leasePc w' = .returned := by simp only [leasePc, (htold rfl).1]
    have hopen' : (app.withWatchers s.watchers s.stopped).closed = false := hopen
    simp only [step, ended_withWatchers, hended, leases_withWatchers hw, hsending, hopen',
      receive_withWatchers hreceive, Option.isSome_none, Bool.false_eq_true, if_false, if_true,
      Option.map_some, ← watch_withWatchers, hgone]

/-- **The close of the stop channels** is a step of `Start`, which shuts the
modules down. -/
theorem shutdownModules_of_close {s s' : Discovery.Lease.State} (hended : app.ended = none)
    (hstopping : app.start = .stopping)
    (hstep : Discovery.Lease.step grantLeaseMaxRetries s .close = some s') :
    step ⟨grantLeaseMaxRetries⟩ (app.withWatchers s.watchers s.stopped) .shutdownModules =
      some (State.withWatchers { app with start := .stopped } s'.watchers s'.stopped) := by
  obtain rfl := Option.some.inj hstep
  simp [step, State.withWatchers, hended, hstopping]

end Watchers

end App

end Nrpc
