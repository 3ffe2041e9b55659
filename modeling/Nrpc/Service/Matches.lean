import Nrpc.Service.Model.Register
import Nrpc.Service.Registry
/-!
# The two maps of the remote service

`Register` writes a service into one map and its remotes, key by key, into
the other. A call either does both or neither (`run_some`), so that after
any calls the keys of the remotes are those the services account for, and a
call that fails has written nothing (`registry_matches`).
-/

namespace Nrpc

namespace Service

variable {T F : Type} {r r' : Registry T F} {new : GoMap GoString (Remote T F)}

/-- The range of `Register` visits each remote of the service once. -/
def Attempt.Ordered (x : Attempt T F) : Prop :=
  ∀ comp ∈ x.comp, ∀ remotes, extractRemote comp x.opts = .ok remotes → remotes.Ranges x.order

/-- **The maps match**: services stand under their names, and the keys of
the remotes are the names of their services and methods. -/
structure Matches (r : Registry T F) : Prop where
  named : ∀ name s, r.services.get? name = some s → s.name = name
  keys : ∀ k, (r.remotes.get? k).isSome ↔
    ∃ name s n, r.services.get? name = some s ∧ (s.remotes.get? n).isSome ∧
      k = s.name ++ dot :: n

/-! ## Programs with a state -/

section Program

variable {ε σ α β : Type} {x : ExceptT ε (StateM σ) α} {f : α → ExceptT ε (StateM σ) β} {s s' : σ}

/-- A program goes on from what its first part leaves. -/
theorem run_bind_ok {a : α} (h : x.run s = (.ok a, s')) : (x >>= f).run s = (f a).run s' := by
  have hbind : (x >>= f).run s = ExceptT.bindCont f (x.run s).1 (x.run s).2 := rfl
  rw [hbind, h]
  rfl

/-- A program ends where its first part fails. -/
theorem run_bind_error {e : ε} (h : x.run s = (.error e, s')) :
    (x >>= f).run s = (.error e, s') := by
  have hbind : (x >>= f).run s = ExceptT.bindCont f (x.run s).1 (x.run s).2 := rfl
  rw [hbind, h]
  rfl

end Program

/-! ## One call -/

/-- The loop enters the remotes it visits. -/
theorem run_forM_enterRemote (service : GoString) (order : List GoString) :
    (order.forM (enterRemote service new)).run r =
      (.ok (), ⟨r.services, addRemotes service new order r.remotes⟩) := by
  induction order generalizing r with
  | nil => rfl
  | cons name order ih =>
    have hround : (enterRemote service new name).run r =
        (.ok (), ⟨r.services, addRemotes service new [name] r.remotes⟩) := by
      simp only [enterRemote, addRemotes, List.foldl_cons, List.foldl_nil]
      cases new.get? name <;> rfl
    exact (run_bind_ok hround).trans ih

/-- What `Register` does once the service has a name. -/
theorem run_eq_of_name {x : Attempt T F} {name : GoString}
    (hname : (newService x.comp x.opts).run r = (.ok name, r)) :
    x.run r =
      if (r.services.get? name).isSome then
        (.error (.err (lit "remote: service already defined: " ++ name)), r)
      else ((do
        let (comp, remotes) ← extract x.comp x.opts
        modify fun r => { r with services := r.services.set name ⟨name, comp, remotes⟩ }
        x.order.forM (enterRemote name remotes) : RegisterM T F Unit)).run r := by
  have hrun : x.run r = _ := run_bind_ok hname
  have hget : (get : RegisterM T F (Registry T F)).run r = (.ok r, r) := rfl
  rw [hrun, run_bind_ok hget]
  split
  · rfl
  · rfl

/-- **A call is all or nothing**: what it leaves is what the registration
returns, or what was there. -/
theorem run_some (comp : Component T F) (opts : List Opt) (order : List GoString) :
    Attempt.run ⟨some comp, opts, order⟩ r =
      match register r comp opts order with
      | .ok r' => (.ok (), r')
      | .error e => (.error (.err e), r) := by
  have hname : (newService (some comp) opts).run r = (.ok (serviceName comp opts), r) := by
    unfold newService serviceName
    split <;> rfl
  rw [run_eq_of_name hname, register]
  split
  · rfl
  · rcases hextract : extractRemote comp opts with e | remotes
    · have hfail : (extract (some comp) opts).run r = (.error (.err e), r) := by
        simp only [extract, hextract]
        rfl
      rw [run_bind_error hfail]
    · have hok : (extract (some comp) opts).run r = (.ok (comp, remotes), r) := by
        simp only [extract, hextract]
        rfl
      rw [run_bind_ok hok]
      exact run_forM_enterRemote _ order

/-- A component that is nil is not registered. -/
theorem run_none (opts : List Opt) (order : List GoString) :
    ∃ e, Attempt.run ⟨none, opts, order⟩ r = (.error e, r) := by
  by_cases hnamed : (applyOptions opts).name = []
  · have hname : (newService (none : Option (Component T F)) opts).run r = (.error .panic, r) := by
      rw [newService, if_neg (not_not.2 hnamed)]
      rfl
    exact ⟨.panic, run_bind_error hname⟩
  · have hname : (newService (none : Option (Component T F)) opts).run r =
        (.ok (applyOptions opts).name, r) := by
      rw [newService, if_pos hnamed]
      rfl
    rw [run_eq_of_name hname]
    split
    · exact ⟨_, rfl⟩
    · exact ⟨.panic, rfl⟩

/-- **How a call can end**: with the registration, or with a failure and the
maps as they were. -/
theorem run_cases (x : Attempt T F) (r : Registry T F) :
    (∃ comp r', x.comp = some comp ∧ register r comp x.opts x.order = .ok r' ∧
      x.run r = (.ok (), r')) ∨ ∃ e, x.run r = (.error e, r) := by
  obtain ⟨_ | comp, opts, order⟩ := x
  · exact Or.inr (run_none opts order)
  · rcases hregister : register r comp opts order with e | r'
    · exact Or.inr ⟨.err e, by rw [run_some, hregister]⟩
    · exact Or.inl ⟨comp, r', rfl, hregister, by rw [run_some, hregister]⟩

/-! ## Sequences of calls -/

theorem matches_empty : Matches (.empty : Registry T F) where
  named := by
    intro name s h
    cases h
  keys := by
    intro k
    simp [Registry.empty]

/-- The keys behind the loop over the remotes of a service. -/
theorem isSome_addRemotes_iff {service k : GoString} {order : List GoString}
    {remotes : GoMap GoString (Remote T F)} (horder : new.Ranges order) :
    ((addRemotes service new order remotes).get? k).isSome ↔
      (∃ n, (new.get? n).isSome ∧ k = service ++ dot :: n) ∨ (remotes.get? k).isSome := by
  by_cases hnew : ∃ n, (new.get? n).isSome ∧ k = service ++ dot :: n
  · obtain ⟨n, hsome, rfl⟩ := hnew
    obtain ⟨remote, hremote⟩ := Option.isSome_iff_exists.1 hsome
    rw [get?_addRemotes horder hremote]
    exact iff_of_true rfl (Or.inl ⟨n, hsome, rfl⟩)
  · rw [or_iff_right hnew, get?_addRemotes_of_ne]
    intro n hkey
    by_contra hsome
    exact hnew ⟨n, Option.isSome_iff_ne_none.2 hsome, hkey⟩

/-- **A registration keeps the maps matching.** Its service had no entry, so
that no service is lost. -/
theorem Matches.register {x : Registration T F} (hr : Matches r) (horder : x.Ordered)
    (h : register r x.comp x.opts x.order = .ok r') : Matches r' := by
  obtain ⟨hfree, new, hextract, hservices, hremotes⟩ := register_eq_ok h
  have hget : ∀ name s, r'.services.get? name = some s ↔
      name = x.service ∧ s = ⟨x.service, x.comp, new⟩ ∨ r.services.get? name = some s := by
    intro name s
    rw [hservices, GoMap.get?_set]
    by_cases hname : name = x.service
    · subst hname
      simp [hfree, eq_comm]
    · simp [hname]
  constructor
  · intro name s hs
    rcases (hget name s).1 hs with ⟨rfl, rfl⟩ | hold
    · rfl
    · exact hr.named name s hold
  · intro k
    rw [hremotes, isSome_addRemotes_iff (horder new hextract), hr.keys]
    constructor
    · rintro (⟨n, hn, rfl⟩ | ⟨name, s, n, hs, hn, rfl⟩)
      · exact ⟨x.service, _, n, (hget _ _).2 (Or.inl ⟨rfl, rfl⟩), hn, rfl⟩
      · exact ⟨name, s, n, (hget _ _).2 (Or.inr hs), hn, rfl⟩
    · rintro ⟨name, s, n, hs, hn, rfl⟩
      rcases (hget name s).1 hs with ⟨-, rfl⟩ | hold
      · exact Or.inl ⟨n, hn, rfl⟩
      · exact Or.inr ⟨name, s, n, hold, hn, rfl⟩

/-- The maps match after every sequence of calls. -/
theorem matches_attemptAll {xs : List (Attempt T F)} (hordered : ∀ x ∈ xs, x.Ordered)
    (hr : Matches r) : Matches (attemptAll r xs) := by
  induction xs generalizing r with
  | nil => exact hr
  | cons x xs ih =>
    have hnext : Matches (x.run r).2 := by
      rcases run_cases x r with ⟨comp, r', hcomp, hregister, hrun⟩ | ⟨e, hrun⟩
      · have horder := hordered x List.mem_cons_self comp hcomp
        rw [hrun]
        exact Matches.register (x := ⟨comp, x.opts, x.order⟩) hr horder hregister
      · rw [hrun]
        exact hr
    exact ih (fun y hy => hordered y (List.mem_cons_of_mem _ hy)) hnext

/-- A registration as a call. -/
def Registration.attempt (x : Registration T F) : Attempt T F := ⟨some x.comp, x.opts, x.order⟩

theorem ordered_attempt {x : Registration T F} (h : x.Ordered) : x.attempt.Ordered := by
  intro comp hcomp
  obtain rfl : x.comp = comp := Option.some.inj hcomp
  exact h

/-- **The registry of a sequence of registrations is what their calls
leave.** -/
theorem attemptAll_attempt (r : Registry T F) (xs : List (Registration T F)) :
    attemptAll r (xs.map Registration.attempt) = registerAll r xs := by
  induction xs generalizing r with
  | nil => rfl
  | cons x xs ih =>
    have hrun : attemptAll r ((x :: xs).map Registration.attempt) =
        attemptAll (x.attempt.run r).2 (xs.map Registration.attempt) := rfl
    rw [hrun, ih, Registration.attempt, run_some, registerAll]
    cases register r x.comp x.opts x.order <;> rfl

/-- **The remotes match the services, and failures change nothing.** -/
theorem registry_matches (xs : List (Attempt T F)) (hordered : ∀ x ∈ xs, x.Ordered) :
    Matches (attemptAll .empty xs) ∧
      ∀ (x : Attempt T F) e, (x.run (attemptAll .empty xs)).1 = .error e →
        (x.run (attemptAll .empty xs)).2 = attemptAll .empty xs := by
  refine ⟨matches_attemptAll hordered matches_empty, fun x e h => ?_⟩
  rcases run_cases x (attemptAll .empty xs) with ⟨comp, r', -, -, hrun⟩ | ⟨e', hrun⟩
  · rw [hrun] at h
    cases h
  · rw [hrun]

/-- The maps of two rooms match, and a third call under a name that is taken
leaves them. -/
theorem registry_matches_rooms :
    let r := attemptAll .empty (twoRooms.map Registration.attempt)
    let again : Attempt Unit (Func Unit Unit Unit) :=
      ⟨some (roomOf 2 [lit "Leave"] (by decide)), [.withName (lit "lobby")], [lit "Leave"]⟩
    Matches r ∧ (r.remotes.get? (lit "lobby.join")).isSome ∧
      (again.run r).1 = .error (.err (lit "remote: service already defined: lobby")) ∧
      (again.run r).2 = r := by
  intro r again
  have hordered : ∀ x ∈ twoRooms.map Registration.attempt, x.Ordered := by
    intro x hx
    obtain ⟨y, hy, rfl⟩ := List.mem_map.1 hx
    exact ordered_attempt (ordered_twoRooms y hy)
  obtain ⟨hmatches, hkept⟩ := registry_matches _ hordered
  have htaken : (r.services.get? (lit "lobby")).isSome := by decide +kernel
  have hrun : (again.run r).1 = .error (.err (lit "remote: service already defined: lobby")) := by
    have hname : serviceName (roomOf 2 [lit "Leave"] (by decide)) [.withName (lit "lobby")] =
        lit "lobby" := by decide
    rw [run_some, register, hname, if_pos htaken]
    exact congrArg (Except.error ∘ Failure.err) (by decide)
  exact ⟨hmatches, by decide +kernel, hrun, hkept again _ hrun⟩

end Service

end Nrpc
