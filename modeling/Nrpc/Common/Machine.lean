import Mathlib.Algebra.Order.Group.Multiset
import Mathlib.Data.Nat.Notation
import Mathlib.Data.Option.Basic
/-!
# Runs of a machine with labelled steps

A `Machine` is a state and a step that is a function of the state and of
an action: whatever a system leaves open — which process moves next, what
a clock reads, in which order a table is walked — stands in the action, so
that a run is the list of its actions and can be replayed. An action that
is not enabled has no successor.

`Meets` says of a run that each action is taken in a state that satisfies
a guard, and `run_invariant` is the induction every safety statement goes
through: what holds at the start and is kept by each guarded step holds
wherever the run arrives. `exists_run_of_progress` is its counterpart for
completion: a machine that can always move short of its goal, and whose
moves use up a measure, gets there. `observe` lists what is seen along a
run, and `run_ledger` balances two such lists against what a state holds.
`run_simulates` carries a run over to another machine, through what is seen
of it.
-/

namespace Nrpc

/-- **A machine**: one step for each enabled action. -/
structure Machine (σ α : Type*) where
  /-- The successor, if the action is enabled. -/
  step : σ → α → Option σ

namespace Machine

variable {σ α : Type*} (M : Machine σ α)

/-- The state a list of actions leads to, if each of them is enabled. -/
def run : σ → List α → Option σ
  | s, [] => some s
  | s, a :: as => (M.step s a).bind fun s' => run s' as

/-- An action has a successor. -/
def Enabled (s : σ) (a : α) : Prop := ∃ s', M.step s a = some s'

/-- Every action of the run is taken in a state the guard admits. -/
def Meets (G : σ → α → Prop) : σ → List α → Prop
  | _, [] => True
  | s, a :: as => G s a ∧ ∀ s', M.step s a = some s' → Meets G s' as

/-- Whether a run meets a decidable guard can be computed along the run. -/
instance decidableMeets (G : σ → α → Prop) [∀ s a, Decidable (G s a)] :
    ∀ s as, Decidable (M.Meets G s as)
  | _, [] => isTrue trivial
  | s, a :: as =>
    match h : M.step s a with
    | none => decidable_of_iff (G s a) (by simp [Meets, h])
    | some s' =>
      have := decidableMeets G s' as
      decidable_of_iff (G s a ∧ M.Meets G s' as) (by simp [Meets, h])

/-- What is seen along a run, in the order in which it is seen. -/
def observe {β : Type*} (obs : σ → α → List β) : σ → List α → List β
  | _, [] => []
  | s, a :: as => obs s a ++ (M.step s a).elim [] fun s' => observe obs s' as

variable {M} {G : σ → α → Prop} {s s' : σ} {a : α} {as : List α}

theorem run_cons_eq_some_iff :
    M.run s (a :: as) = some s' ↔ ∃ mid, M.step s a = some mid ∧ M.run mid as = some s' := by
  rw [run, Option.bind_eq_some_iff]

/-- A run of two parts. -/
theorem run_append (bs : List α) : M.run s (as ++ bs) = (M.run s as).bind (M.run · bs) := by
  induction as generalizing s with
  | nil => rfl
  | cons a as ih =>
    rw [List.cons_append, run, run, Option.bind_assoc]
    exact Option.bind_congr fun mid _ => ih

/-- **A machine of smaller steps.** Where each step of a machine is the run
of the smaller steps seen at it, a run is the run of all that are seen. -/
theorem run_observe {β : Type*} {N : Machine σ β} {obs : σ → α → List β}
    (hobs : ∀ s a, N.run s (obs s a) = M.step s a) :
    N.run s (M.observe obs s as) = M.run s as := by
  induction as generalizing s with
  | nil => rfl
  | cons a as ih =>
    rw [observe, run_append, hobs, run]
    rcases M.step s a with _ | mid
    · rfl
    · exact ih

/-- What is seen along a run is seen at one of its actions. -/
theorem mem_observe {β : Type*} {obs : σ → α → List β} {b : β} (h : b ∈ M.observe obs s as) :
    ∃ s' a, a ∈ as ∧ b ∈ obs s' a := by
  induction as generalizing s with
  | nil => cases h
  | cons a as ih =>
    rw [observe, List.mem_append] at h
    rcases h with h | h
    · exact ⟨s, a, List.mem_cons_self, h⟩
    · rcases hstep : M.step s a with _ | mid
      · rw [hstep] at h
        cases h
      · rw [hstep] at h
        obtain ⟨s', a', ha', hb⟩ := ih h
        exact ⟨s', a', List.mem_cons_of_mem _ ha', hb⟩

/-- What is read off the things seen is read off at each action. -/
theorem flatMap_observe {β γ : Type*} {obs : σ → α → List β} (f : β → List γ) :
    (M.observe obs s as).flatMap f = M.observe (fun s a => (obs s a).flatMap f) s as := by
  induction as generalizing s with
  | nil => rfl
  | cons a as ih =>
    rw [observe, observe, List.flatMap_append]
    rcases M.step s a with _ | mid
    · rfl
    · rw [Option.elim_some, Option.elim_some, ih]

/-- A guarded run, one enabled step at a time. -/
theorem meets_cons (ha : G s a) (hstep : M.step s a = some s') (has : M.Meets G s' as) :
    M.Meets G s (a :: as) := by
  refine ⟨ha, ?_⟩
  intro mid hmid
  rw [hstep] at hmid
  obtain rfl := Option.some.inj hmid
  exact has

/-- The guard holds wherever the run has got to. -/
theorem meets_iff_forall_append : M.Meets G s as ↔
    ∀ pre a rest s', as = pre ++ a :: rest → M.run s pre = some s' → G s' a := by
  induction as generalizing s with
  | nil =>
    refine iff_of_true trivial ?_
    intro pre a rest s' h
    simp at h
  | cons b as ih =>
    constructor
    · rintro ⟨hb, hrest⟩ pre a rest s' h hrun
      rcases pre with _ | ⟨c, pre⟩
      · obtain ⟨rfl, -⟩ := List.cons.inj h
        obtain rfl : s = s' := by simpa [run] using hrun
        exact hb
      · obtain ⟨rfl, rfl⟩ := List.cons.inj h
        obtain ⟨mid, hmid, hrun⟩ := run_cons_eq_some_iff.1 hrun
        exact ih.1 (hrest mid hmid) pre a rest s' rfl hrun
    · intro h
      refine ⟨h [] b as s rfl rfl, ?_⟩
      intro mid hmid
      refine ih.2 ?_
      rintro pre a rest s' rfl hrun
      exact h (b :: pre) a rest s' rfl (run_cons_eq_some_iff.2 ⟨mid, hmid, hrun⟩)

/-- A guard is met in parts. -/
theorem meets_append_iff {mid : σ} {bs : List α} (hrun : M.run s as = some mid) :
    M.Meets G s (as ++ bs) ↔ M.Meets G s as ∧ M.Meets G mid bs := by
  induction as generalizing s with
  | nil =>
    obtain rfl : s = mid := by simpa [run] using hrun
    exact (and_iff_right trivial).symm
  | cons a as ih =>
    obtain ⟨next, hnext, hrest⟩ := run_cons_eq_some_iff.1 hrun
    constructor
    · rintro ⟨ha, has⟩
      obtain ⟨hfirst, hlast⟩ := (ih hrest).1 (has next hnext)
      exact ⟨meets_cons ha hnext hfirst, hlast⟩
    · rintro ⟨⟨ha, has⟩, hlast⟩
      exact meets_cons ha hnext ((ih hrest).2 ⟨has next hnext, hlast⟩)

/-- A guard that admits the actions in every state. -/
theorem meets_of_forall (h : ∀ a ∈ as, ∀ s, G s a) : M.Meets G s as := by
  rw [meets_iff_forall_append]
  rintro pre a rest s' rfl -
  exact h a (by simp) s'

/-- **The invariant rule.** What a guarded step keeps, a guarded run
keeps. -/
theorem run_invariant {I : σ → Prop}
    (hstep : ∀ s a s', I s → G s a → M.step s a = some s' → I s') :
    I s → M.Meets G s as → M.run s as = some s' → I s' := by
  induction as generalizing s with
  | nil =>
    intro hI _ hrun
    obtain rfl : s = s' := by simpa [run] using hrun
    exact hI
  | cons a as ih =>
    intro hI hmeets hrun
    obtain ⟨mid, hmid, hrest⟩ := run_cons_eq_some_iff.1 hrun
    exact ih (hstep s a mid hI hmeets.1 hmid) (hmeets.2 mid hmid) hrest

/-- **The simulation rule.** Where the machine `N` follows each guarded step
through what is seen at it, it follows the run through all that is seen. -/
theorem run_simulates {τ β : Type*} {N : Machine τ β} {obs : σ → α → List β} {I : σ → Prop}
    (f : σ → τ) (hinv : ∀ s a s', I s → G s a → M.step s a = some s' → I s')
    (hsim : ∀ s a s', I s → G s a → M.step s a = some s' → N.run (f s) (obs s a) = some (f s')) :
    I s → M.Meets G s as → M.run s as = some s' →
      N.run (f s) (M.observe obs s as) = some (f s') := by
  induction as generalizing s with
  | nil =>
    intro _ _ hrun
    obtain rfl : s = s' := by simpa [run] using hrun
    rfl
  | cons a as ih =>
    intro hI hmeets hrun
    obtain ⟨mid, hmid, hrest⟩ := run_cons_eq_some_iff.1 hrun
    have hone := hsim s a mid hI hmeets.1 hmid
    have hmore := ih (hinv s a mid hI hmeets.1 hmid) (hmeets.2 mid hmid) hrest
    rw [observe, hmid, Option.elim_some, run_append, hone]
    exact hmore

/-- Every run meets the guard that admits everything. -/
theorem meets_true (s : σ) (as : List α) : M.Meets (fun _ _ => True) s as := by
  induction as generalizing s with
  | nil => trivial
  | cons a as ih => exact ⟨trivial, fun s' _ => ih s'⟩

/-- The invariant rule without a guard. -/
theorem run_invariant_of_step {I : σ → Prop}
    (hstep : ∀ s a s', I s → M.step s a = some s' → I s') (hI : I s)
    (hrun : M.run s as = some s') : I s' :=
  run_invariant (fun s a s' hs _ => hstep s a s' hs) hI (meets_true s as) hrun

/-- **What has come about came about at a step** of the run. -/
theorem exists_step_of_run {P : σ → Prop} (hs : ¬ P s) (hs' : P s')
    (hrun : M.run s as = some s') :
    ∃ pre a post mid mid', as = pre ++ a :: post ∧ M.run s pre = some mid ∧
      M.step mid a = some mid' ∧ ¬ P mid ∧ P mid' := by
  induction as generalizing s with
  | nil =>
    obtain rfl : s = s' := by simpa [run] using hrun
    exact absurd hs' hs
  | cons a as ih =>
    obtain ⟨next, hnext, hrest⟩ := run_cons_eq_some_iff.1 hrun
    by_cases hP : P next
    · exact ⟨[], a, as, s, next, rfl, rfl, hnext, hs, hP⟩
    · obtain ⟨pre, b, post, mid, mid', rfl, hpre, hrest⟩ := ih hP hrest
      exact ⟨a :: pre, b, post, mid, mid', rfl,
        run_cons_eq_some_iff.2 ⟨next, hnext, hpre⟩, hrest⟩

/-- **The history rule.** An invariant of the state and of what has been
seen so far holds along a run. -/
theorem run_history {β : Type*} {obs : σ → α → List β} {I : σ → List β → Prop}
    (hstep : ∀ s a s' seen, I s seen → M.step s a = some s' → I s' (seen ++ obs s a))
    {seen : List β} (hI : I s seen) (hrun : M.run s as = some s') :
    I s' (seen ++ M.observe obs s as) := by
  induction as generalizing s seen with
  | nil =>
    obtain rfl : s = s' := by simpa [run] using hrun
    rwa [observe, List.append_nil]
  | cons a as ih =>
    obtain ⟨mid, hmid, hrest⟩ := run_cons_eq_some_iff.1 hrun
    have hnext := ih (hstep s a mid seen hI hmid) hrest
    rwa [observe, hmid, Option.elim_some, ← List.append_assoc]

/-- **The history rule for the actions themselves.** -/
theorem run_trace {I : σ → List α → Prop}
    (hstep : ∀ s a s' seen, I s seen → M.step s a = some s' → I s' (seen ++ [a]))
    {seen : List α} (hI : I s seen) (hrun : M.run s as = some s') : I s' (seen ++ as) := by
  induction as generalizing s seen with
  | nil =>
    obtain rfl : s = s' := by simpa [run] using hrun
    rwa [List.append_nil]
  | cons a as ih =>
    obtain ⟨mid, hmid, hrest⟩ := run_cons_eq_some_iff.1 hrun
    have hnext := ih (hstep s a mid seen hI hmid) hrest
    rwa [List.append_assoc, List.singleton_append] at hnext

/-- A condition on the actions of a run joins its guard. -/
theorem Meets.and_forall {P : α → Prop} (hP : ∀ a ∈ as, P a) :
    M.Meets G s as → M.Meets (fun s a => P a ∧ G s a) s as := by
  induction as generalizing s with
  | nil => exact id
  | cons a as ih =>
    rintro ⟨ha, has⟩
    refine ⟨⟨hP a (by simp), ha⟩, ?_⟩
    intro s' hstep
    exact ih (fun b hb => hP b (by simp [hb])) (has s' hstep)

/-- **The ledger rule.** Where each step changes what is held by what it
takes in less what it gives out, so does a run. -/
theorem run_ledger {β : Type*} {I : σ → Prop} {taken given : σ → α → List β}
    (held : σ → Multiset β)
    (hinv : ∀ s a s', I s → G s a → M.step s a = some s' → I s')
    (hstep : ∀ s a s', I s → G s a → M.step s a = some s' →
      held s' + (given s a : Multiset β) = held s + (taken s a : Multiset β)) :
    I s → M.Meets G s as → M.run s as = some s' →
      held s' + (M.observe given s as : Multiset β) =
        held s + (M.observe taken s as : Multiset β) := by
  induction as generalizing s with
  | nil =>
    intro _ _ hrun
    obtain rfl : s = s' := by simpa [run] using hrun
    rfl
  | cons a as ih =>
    intro hI hmeets hrun
    obtain ⟨mid, hmid, hrest⟩ := run_cons_eq_some_iff.1 hrun
    have hone := hstep s a mid hI hmeets.1 hmid
    have hmore := ih (hinv s a mid hI hmeets.1 hmid) (hmeets.2 mid hmid) hrest
    simp only [observe, hmid, Option.elim_some, ← Multiset.coe_add]
    calc held s' + (↑(given s a) + ↑(M.observe given mid as))
        = (held s' + ↑(M.observe given mid as)) + ↑(given s a) := by
          rw [add_comm (given s a : Multiset β), add_assoc]
      _ = (held mid + ↑(given s a)) + ↑(M.observe taken mid as) := by
          rw [hmore, add_right_comm]
      _ = held s + (↑(taken s a) + ↑(M.observe taken mid as)) := by rw [hone, add_assoc]

/-- **The completion rule.** Where every state of an invariant that is not
at the goal has an enabled action, and every step uses up some of a
measure, the goal is reached. -/
theorem exists_run_of_progress {I goal : σ → Prop} (measure : σ → ℕ)
    (hstep : ∀ s a s', I s → M.step s a = some s' → I s' ∧ measure s' < measure s)
    (hprogress : ∀ s, I s → ¬ goal s → ∃ a s', M.step s a = some s') (hI : I s) :
    ∃ as s', M.run s as = some s' ∧ goal s' := by
  induction hn : measure s using Nat.strongRecOn generalizing s with
  | _ n ih =>
    by_cases hgoal : goal s
    · exact ⟨[], s, rfl, hgoal⟩
    · obtain ⟨a, mid, hmid⟩ := hprogress s hI hgoal
      obtain ⟨hImid, hlt⟩ := hstep s a mid hI hmid
      obtain ⟨as, s', hrun, hs'⟩ := ih (measure mid) (by omega) hImid rfl
      exact ⟨a :: as, s', run_cons_eq_some_iff.2 ⟨mid, hmid, hrun⟩, hs'⟩

end Machine

end Nrpc
