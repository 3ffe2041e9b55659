import Nrpc.App.Model.Start
import Nrpc.Common.Stretch
/-!
# A server is announced only while it can serve

The service discovery is registered behind the other modules so that, in
the words of `Start`, all of them have been initialised before the server
receives requests. `Start` registers it before the components are started,
though, and a hook of a component may register modules too: behind the
service discovery, if it does not ask for the front.

What stands in front of it when the modules are started has been
initialised by the time the server is announced and is not stopped before
it has been withdrawn; so is every component, with its remotes in the table
of the remote service, which is complete by then. What stands behind it has
neither (`announced_while_serving`).
-/

namespace Nrpc

namespace App

open Stretch

variable {K M : Type}

/-! ## The property -/

/-- The module of the service discovery. -/
def discovery (own : OwnModules M) : ModuleWrapper M :=
  ⟨own.serviceDiscovery, lit "serviceDiscovery"⟩

/-- **The server is announced**: the service discovery has begun its `Init`,
in which it writes the server's entry, and has not returned from its
`BeforeShutdown`, in which it revokes the lease of the entry. -/
def Announced (d : ModuleWrapper M) (pre : List (Call K M)) : Prop :=
  Within (.module .init d) (.module .beforeShutdown d) pre

/-- **A module is up**: its `Init` has returned and neither method of the
shutdown has begun. -/
structure Up (w : ModuleWrapper M) (pre : List (Call K M)) : Prop where
  begun : .module .init w ∈ returned pre
  kept : .module .beforeShutdown w ∉ pre
  whole : .module .shutdown w ∉ pre

/-- The components handed to the remote service. -/
def registered (pre : List (Call K M)) : List K :=
  pre.filterMap fun
    | .register k => some k
    | .component .. | .module .. => none

/-- A call on a component or on the remote service while the app starts. -/
def Call.Starting : Call K M → Prop
  | .component phase _ => phase = .init ∨ phase = .afterInit
  | .register _ => True
  | .module .. => False

/-- A call that can fall between the announcement and its end, with the
modules `front` in front of the service discovery `d`. -/
def Call.Between (front : List (ModuleWrapper M)) (d : ModuleWrapper M) : Call K M → Prop
  | .module phase w => phase = .init ∨ phase = .afterInit ∨
      (phase = .beforeShutdown ∧ w ∉ front ∧ w ≠ d)
  | .component .. | .register _ => False

theorem registered_append (cs cs' : List (Call K M)) :
    registered (cs ++ cs') = registered cs ++ registered cs' := List.filterMap_append

/-- Calls of modules hand nothing to the remote service. -/
theorem registered_map_module (phase : Phase) (ws : List (ModuleWrapper M)) :
    registered (ws.map (Call.module (K := K) phase)) = [] := by
  simp [registered]

/-! ## What is registered on the way -/

variable {app : Modules M} {xs ys : List (Registration M)}

theorem registerAll_append (app : Modules M) (xs ys : List (Registration M)) :
    registerAll app (xs ++ ys) = registerAll (registerAll app xs) ys := by
  simp only [registerAll, List.foldl_append]

theorem mem_of_mem_accepted {x : Registration M} (h : x ∈ accepted app xs) : x ∈ xs := by
  induction xs generalizing app with
  | nil => exact h
  | cons y xs ih =>
    rcases accepted_cons app y xs with ⟨hacc, -⟩ | ⟨app', -, hacc, -⟩
    · rw [hacc] at h
      exact List.mem_cons_of_mem y (ih h)
    · rw [hacc] at h
      rcases List.mem_cons.1 h with rfl | h
      · exact List.mem_cons_self
      · exact List.mem_cons_of_mem y (ih h)

/-- Registrations keep what stands in the slice together. -/
theorem exists_modulesArr_registerAll (app : Modules M) (xs : List (Registration M)) :
    ∃ front back, (registerAll app xs).modulesArr = front ++ app.modulesArr ++ back :=
  ⟨_, _, modulesArr_registerAll app xs⟩

/-- And if none of them asks for the front, they leave its places alone. -/
theorem exists_modulesArr_of_after (hafter : ∀ x ∈ xs, x.place = .after) :
    ∃ back, (registerAll app xs).modulesArr = app.modulesArr ++ back := by
  have hnone : placed .before (accepted app xs) = [] := by
    rw [placed, List.map_eq_nil_iff, List.filter_eq_nil_iff]
    intro x hx
    rw [hafter x (mem_of_mem_accepted hx)]
    decide
  exact ⟨placed .after (accepted app xs), by rw [modulesArr_registerAll, hnone]; rfl⟩

/-! ## The loops -/

namespace Boot

variable {hooks : Call K M → Hook K M} {initErr : GoString → Option GoString}
variable {b b' : Boot K M} {cs : List (Call K M)} {ws front back : List (ModuleWrapper M)}
variable {d : ModuleWrapper M}

/-- The modules the hooks of some calls register. -/
def wanted (hooks : Call K M → Hook K M) (cs : List (Call K M)) : List (Registration M) :=
  cs.flatMap fun c => (hooks c).modules

@[simp] theorem sweep_nil (b : Boot K M) : b.sweep hooks [] = b := rfl

@[simp] theorem sweep_cons (b : Boot K M) (c : Call K M) (cs : List (Call K M)) :
    b.sweep hooks (c :: cs) = (b.call hooks c).sweep hooks cs := rfl

@[simp] theorem call_calls (b : Boot K M) (c : Call K M) :
    (b.call hooks c).calls = b.calls ++ [c] := rfl

theorem sweep_calls (b : Boot K M) (cs : List (Call K M)) :
    (b.sweep hooks cs).calls = b.calls ++ cs := by
  induction cs generalizing b with
  | nil => simp
  | cons c cs ih => rw [sweep_cons, ih, call_calls, List.append_assoc, List.singleton_append]

theorem sweep_modules (b : Boot K M) (cs : List (Call K M)) :
    (b.sweep hooks cs).modules = registerAll b.modules (wanted hooks cs) := by
  induction cs generalizing b with
  | nil => rfl
  | cons c cs ih =>
    have hwanted : wanted hooks (c :: cs) = (hooks c).modules ++ wanted hooks cs :=
      List.flatMap_cons
    rw [sweep_cons, ih, hwanted, registerAll_append]
    rfl

/-- A loop leaves the components it found where they are. -/
theorem mem_sweep_remoteComp (b : Boot K M) (cs : List (Call K M)) {k : K}
    (hk : k ∈ b.remoteComp) : k ∈ (b.sweep hooks cs).remoteComp := by
  induction cs generalizing b with
  | nil => exact hk
  | cons c cs ih => exact ih (b.call hooks c) (List.mem_append_left _ hk)

/-- **Starting the components**: their calls come first, those of every
component that was there among them, and no module is called; the slice of
the modules is what their hooks have made of it. -/
theorem startupComponents_spec (hooks : Call K M → Hook K M) (remoteService : Bool)
    (b : Boot K M) :
    ∃ cs, (startupComponents hooks remoteService b).calls = b.calls ++ cs ∧
      (startupComponents hooks remoteService b).modules =
        registerAll b.modules (wanted hooks cs) ∧
      (∀ c ∈ cs, c.Starting) ∧
      ∀ k ∈ b.remoteComp, .component .init k ∈ cs ∧ .component .afterInit k ∈ cs ∧
        (remoteService = true → .register k ∈ cs) := by
  have hstarting (phase : Phase) (ks : List K) (hphase : phase = .init ∨ phase = .afterInit) :
      ∀ c ∈ ks.map (Call.component (M := M) phase), c.Starting := by
    rintro c hc
    obtain ⟨k, -, rfl⟩ := List.mem_map.1 hc
    exact hphase
  let b₁ := b.sweep hooks (b.remoteComp.map (.component .init))
  let b₂ := b₁.sweep hooks (b₁.remoteComp.map (.component .afterInit))
  have hin₁ : ∀ k ∈ b.remoteComp, k ∈ b₁.remoteComp := fun k => mem_sweep_remoteComp b _
  have hin₂ : ∀ k ∈ b₁.remoteComp, k ∈ b₂.remoteComp := fun k => mem_sweep_remoteComp b₁ _
  let regs : List (Call K M) := if remoteService then b₂.remoteComp.map .register else []
  have heq : startupComponents hooks remoteService b = b₂.sweep hooks regs := by
    cases remoteService <;> rfl
  refine ⟨b.remoteComp.map (.component .init) ++ b₁.remoteComp.map (.component .afterInit) ++ regs,
    ?_, ?_, ?_, ?_⟩
  · rw [heq, sweep_calls, sweep_calls, sweep_calls, List.append_assoc, List.append_assoc,
      List.append_assoc]
  · rw [heq, sweep_modules, sweep_modules, sweep_modules]
    simp only [wanted, List.flatMap_append, registerAll_append]
  · intro c hc
    rcases List.mem_append.1 hc with hc | hc
    · rcases List.mem_append.1 hc with hc | hc
      · exact hstarting .init _ (Or.inl rfl) c hc
      · exact hstarting .afterInit _ (Or.inr rfl) c hc
    · simp only [regs] at hc
      split at hc
      · obtain ⟨k, -, rfl⟩ := List.mem_map.1 hc
        trivial
      · cases hc
  · intro k hk
    refine ⟨?_, ?_, ?_⟩
    · simp [hk]
    · simp [hin₁ k hk]
    · rintro rfl
      simp [regs, hin₂ k (hin₁ k hk)]

/-- **The first loop of `startModules`** calls every module, or ends the
process at one whose `Init` fails. -/
theorem initModules_cases (hooks : Call K M → Hook K M) (initErr : GoString → Option GoString)
    (ws : List (ModuleWrapper M)) (b : Boot K M) :
    (∃ b', initModules hooks initErr ws b = .ok b' ∧
      b'.calls = b.calls ++ ws.map (.module .init) ∧
      ∃ xs, b'.modules = registerAll b.modules xs) ∨
    ∃ done w rest b', ws = done ++ w :: rest ∧ initErr w.name ≠ none ∧
      initModules hooks initErr ws b = .error (.fatal, b') ∧
      b'.calls = b.calls ++ (done ++ [w]).map (.module .init) := by
  induction ws generalizing b with
  | nil => exact Or.inl ⟨b, rfl, by simp, [], rfl⟩
  | cons w ws ih =>
    cases herr : initErr w.name with
    | some err =>
      refine Or.inr ⟨[], w, ws, b.call hooks (.module .init w), rfl, ?_, ?_, rfl⟩
      · rw [herr]
        exact Option.some_ne_none err
      · simp only [initModules, herr]
    | none =>
      have hstep : initModules hooks initErr (w :: ws) b =
          initModules hooks initErr ws (b.call hooks (.module .init w)) := by
        simp only [initModules, herr]
      rw [hstep]
      rcases ih (b.call hooks (.module .init w)) with
        ⟨b', hok, hcalls, xs, hmod⟩ | ⟨done, v, rest, b', rfl, hv, herror, hcalls⟩
      · refine Or.inl ⟨b', hok, ?_, (hooks (.module .init w)).modules ++ xs, ?_⟩
        · rw [hcalls, call_calls, List.append_assoc]
          rfl
        · rw [hmod, registerAll_append]
          rfl
      · refine Or.inr ⟨w :: done, v, rest, b', rfl, hv, herror, ?_⟩
        rw [hcalls, call_calls, List.append_assoc]
        rfl

/-- **A part of a run adds calls**, and none of the remote service. -/
def Adds (b : Boot K M) (x : Except (Exit × Boot K M) (Boot K M)) : Prop :=
  ∃ cs, called x = b.calls ++ cs ∧ registered cs = []

theorem Adds.of_calls {x : Except (Exit × Boot K M) (Boot K M)} (h : Adds b' x)
    (hcalls : b'.calls = b.calls ++ cs) (hcs : registered cs = []) : Adds b x := by
  obtain ⟨cs', heq, hcs'⟩ := h
  refine ⟨cs ++ cs', by rw [heq, hcalls, List.append_assoc], ?_⟩
  rw [registered_append, hcs, hcs']
  rfl

theorem adds_error {e : Exit} : Adds b (.error (e, b)) := ⟨[], (List.append_nil _).symm, rfl⟩

theorem adds_ok : Adds b (.ok b) := ⟨[], (List.append_nil _).symm, rfl⟩

/-- A part of a run and what comes behind it. -/
theorem Adds.bind {x : Except (Exit × Boot K M) (Boot K M)}
    {f : Boot K M → Except (Exit × Boot K M) (Boot K M)}
    (hx : Adds b x) (hf : ∀ b, Adds b (f b)) : Adds b (x >>= f) := by
  obtain ⟨cs, hcs, hnone⟩ := hx
  cases x with
  | error e => exact ⟨cs, hcs, hnone⟩
  | ok b' => exact (hf b').of_calls hcs hnone

/-- A loop down a slice. -/
theorem adds_countdown {α : Type} (slice : Boot K M → List α) {c : α → Call K M}
    (hc : ∀ x, registered [c x] = []) (i : ℕ) (b : Boot K M) :
    Adds b (countdown hooks slice c i b) := by
  induction i generalizing b with
  | zero => exact adds_ok
  | succ i ih =>
    rw [countdown]
    split
    · rename_i x _
      exact (ih (b.call hooks (c x))).of_calls (call_calls b (c x)) (hc x)
    · exact adds_error

theorem adds_shutdownModules (b : Boot K M) : Adds b (shutdownModules hooks b) :=
  (adds_countdown arr (fun _ => rfl) _ b).bind fun b => adds_countdown arr (fun _ => rfl) _ b

theorem adds_shutdownComponents (b : Boot K M) : Adds b (shutdownComponents hooks b) :=
  (adds_countdown remoteComp (fun _ => rfl) _ b).bind fun b =>
    adds_countdown remoteComp (fun _ => rfl) _ b

/-- The hooks of `BeforeShutdown` ask for no place in front. -/
def Settled (hooks : Call K M → Hook K M) : Prop :=
  ∀ w, ∀ x ∈ (hooks (.module .beforeShutdown w)).modules, x.place = .after

/-- **The first loop of `shutdownModules` visits the slice in reverse**, if
no hook shifts it. -/
theorem countdown_beforeShutdown (hsettled : Settled hooks) {arr tail : List (ModuleWrapper M)}
    {i : ℕ} (hi : i ≤ arr.length) (harr : b.arr = arr ++ tail) :
    ∃ b', countdown hooks Boot.arr (.module .beforeShutdown) i b = .ok b' ∧
      b'.calls = b.calls ++ (arr.take i).reverse.map (.module .beforeShutdown) := by
  induction i generalizing b tail with
  | zero => exact ⟨b, rfl, by simp⟩
  | succ i ih =>
    have hlt : i < arr.length := by omega
    have hget : b.arr[i]? = some arr[i] := by
      rw [harr, List.getElem?_append_left hlt, List.getElem?_eq_getElem hlt]
    -- the hook of this turn adds to the end, so the places below `i` stay
    obtain ⟨back, hback⟩ := @exists_modulesArr_of_after M b.modules _ (hsettled arr[i])
    have hnext : (b.call hooks (.module .beforeShutdown arr[i])).arr = arr ++ (tail ++ back) := by
      rw [← List.append_assoc, ← harr]
      exact hback
    obtain ⟨b', hrun, hcalls⟩ := ih (by omega) hnext
    refine ⟨b', ?_, ?_⟩
    · rw [countdown, hget]
      exact hrun
    · rw [hcalls, call_calls, List.take_succ_eq_append_getElem hlt]
      simp only [List.reverse_append, List.reverse_singleton, List.singleton_append,
        List.map_cons, List.append_assoc]

/-- Where the service discovery stands in a slice that has grown around
it, and what stands behind it. -/
theorem exists_behind (hcons : Consistent b.modules) (harr : b.arr = front ++ d :: back)
    (hgrown : ∃ xs, b'.modules = registerAll b.modules xs) :
    ∃ front' back', b'.arr = front' ++ d :: back' ∧ ∀ w ∈ back', w ∉ front ∧ w ≠ d := by
  obtain ⟨xs, hxs⟩ := hgrown
  obtain ⟨more, less, heq⟩ := exists_modulesArr_registerAll b.modules xs
  have harr' : b'.arr = (more ++ front) ++ d :: (back ++ less) := by
    rw [arr, hxs, heq, show b.modules.modulesArr = _ from harr]
    simp
  refine ⟨_, _, harr', ?_⟩
  -- the names of the slice are distinct, so it holds no module twice
  have hnodup : b'.arr.Nodup := by
    have hdistinct := (consistent_registerAll hcons xs).distinct
    rw [← hxs] at hdistinct
    exact hdistinct.of_map
  rw [harr', List.nodup_append] at hnodup
  obtain ⟨-, hback, hapart⟩ := hnodup
  intro w hw
  refine ⟨?_, ?_⟩
  · intro hfront
    exact hapart w (List.mem_append_right more hfront) w (List.mem_cons_of_mem d hw) rfl
  · rintro rfl
    exact (List.nodup_cons.1 hback).1 hw

/-- `Start` behind the start of the components. -/
def serve (hooks : Call K M → Hook K M) (initErr : GoString → Option GoString)
    (running : Hook K M) (b : Boot K M) : Except (Exit × Boot K M) (Boot K M) := do
  let b ← startModules hooks initErr b
  let b ← shutdownModules hooks (running.run b)
  shutdownComponents hooks b

theorem start_eq_serve {own : OwnModules M} {remoteService : Bool} {running : Hook K M}
    {modules : Modules M} (hown : registerOwn own b.modules = .ok modules) :
    start hooks initErr own remoteService running b =
      serve hooks initErr running (startupComponents hooks remoteService { b with modules }) := by
  rw [start, hown]
  rfl

/-- The modules while the app is up and the calls until then, if every
`Init` succeeds. -/
theorem startModules_eq_ok (running : Hook K M)
    (hok : initModules hooks initErr b.arr b = .ok b')
    (hgrown : ∃ xs, b'.modules = registerAll b.modules xs) :
    ∃ b₂, startModules hooks initErr b = .ok b₂ ∧
      (running.run b₂).calls = b'.calls ++ b'.arr.map (.module .afterInit) ∧
      ∃ xs, (running.run b₂).modules = registerAll b.modules xs := by
  obtain ⟨xs, hxs⟩ := hgrown
  refine ⟨b'.sweep hooks (b'.arr.map (.module .afterInit)), ?_, sweep_calls .., xs ++
    wanted hooks (b'.arr.map (.module .afterInit)) ++ running.modules, ?_⟩
  · rw [startModules, hok]
    rfl
  · show registerAll (b'.sweep hooks _).modules _ = _
    rw [sweep_modules, hxs, registerAll_append, registerAll_append]

/-- **The shutdown of the modules** passes what stands behind the service
discovery, then the service discovery, and then what stands in front. -/
theorem exists_called_shutdown (hsettled : Settled hooks) (harr : b.arr = front ++ d :: back) :
    ∃ cs, called (do shutdownComponents hooks (← shutdownModules hooks b)) =
      b.calls ++ (back.reverse.map (.module .beforeShutdown) ++
        .module .beforeShutdown d :: cs) := by
  obtain ⟨b', hdown, hcalls⟩ :=
    countdown_beforeShutdown hsettled (Nat.le_refl b.arr.length) (List.append_nil b.arr).symm
  obtain ⟨cs, hcs⟩ : ∃ cs, called (do shutdownComponents hooks (← shutdownModules hooks b)) =
      b'.calls ++ cs := by
    have hrest : Adds b' (do
        shutdownComponents hooks (← countdown hooks arr (.module .shutdown) b'.arr.length b')) :=
      (adds_countdown arr (fun _ => rfl) _ b').bind adds_shutdownComponents
    obtain ⟨cs, hcs, -⟩ := hrest
    rw [shutdownModules, hdown]
    exact ⟨cs, hcs⟩
  refine ⟨front.reverse.map (.module .beforeShutdown) ++ cs, ?_⟩
  rw [hcs, hcalls, List.take_length, harr]
  simp

/-- **A run of `Start` around the announcement.** -/
theorem serve_cases (hsettled : Settled hooks) (initErr : GoString → Option GoString)
    (running : Hook K M) (hcons : Consistent b.modules) (harr : b.arr = front ++ d :: back) :
    ∃ mid : List (Call K M), (∀ c ∈ mid, c.Between front d) ∧
      (called (serve hooks initErr running b) <+:
          b.calls ++ front.map (.module .init) ++ .module .init d :: mid ∨
        ∃ rest, called (serve hooks initErr running b) =
          b.calls ++ front.map (.module .init) ++
            .module .init d :: (mid ++ .module .beforeShutdown d :: rest)) := by
  have hinits : b.arr.map (Call.module (K := K) .init) =
      front.map (.module .init) ++ .module .init d :: back.map (.module .init) := by
    rw [harr, List.map_append, List.map_cons]
  rcases initModules_cases hooks initErr b.arr b with
    ⟨b₁, hok, hcalls, hgrown⟩ | ⟨done, w, rest, b', hws, -, herr, hcalls⟩
  · obtain ⟨b₂, hstart, hcalls₂, hgrown₂⟩ := startModules_eq_ok running hok hgrown
    obtain ⟨front', back', harr', hbehind⟩ := exists_behind hcons harr hgrown₂
    obtain ⟨cs, hcs⟩ := exists_called_shutdown hsettled harr'
    refine ⟨back.map (.module .init) ++ b₁.arr.map (.module .afterInit) ++
      back'.reverse.map (.module .beforeShutdown), ?_, Or.inr ⟨cs, ?_⟩⟩
    · intro c hc
      rcases List.mem_append.1 hc with hc | hc
      · rcases List.mem_append.1 hc with hc | hc
        · obtain ⟨w, -, rfl⟩ := List.mem_map.1 hc
          exact Or.inl rfl
        · obtain ⟨w, -, rfl⟩ := List.mem_map.1 hc
          exact Or.inr (Or.inl rfl)
      · obtain ⟨w, hw, rfl⟩ := List.mem_map.1 hc
        exact Or.inr (Or.inr ⟨rfl, hbehind w (List.mem_reverse.1 hw)⟩)
    · rw [serve, hstart]
      refine hcs.trans ?_
      rw [hcalls₂, hcalls, hinits]
      simp
  · -- the process ends within the first loop
    refine ⟨back.map (.module .init), ?_, Or.inl ⟨rest.map (.module .init), ?_⟩⟩
    · intro c hc
      obtain ⟨w, -, rfl⟩ := List.mem_map.1 hc
      exact Or.inl rfl
    · rw [serve, startModules, herr, List.append_assoc, ← hinits, hws]
      show b'.calls ++ _ = _
      rw [hcalls]
      simp

/-- The modules whose `Init` is called, all of them or up to one that
fails, and that the rest of the run does without the remote service. -/
theorem exists_adds_serve (hooks : Call K M → Hook K M) (initErr : GoString → Option GoString)
    (running : Hook K M) (b : Boot K M) :
    ∃ b' done, Adds b' (serve hooks initErr running b) ∧
      b'.calls = b.calls ++ done.map (.module .init) ∧
      (done = b.arr ∨ ∃ ws w rest, done = ws ++ [w] ∧ b.arr = ws ++ w :: rest ∧
        initErr w.name ≠ none) := by
  have hdown : ∀ b, Adds b (do
      shutdownComponents hooks (← shutdownModules hooks (running.run b))) :=
    fun b => (adds_shutdownModules (running.run b)).bind adds_shutdownComponents
  rcases initModules_cases hooks initErr b.arr b with
    ⟨b', hok, hcalls, -⟩ | ⟨ws, w, rest, b', harr, hw, herr, hcalls⟩
  · refine ⟨b', b.arr, Adds.bind ?_ hdown, hcalls, Or.inl rfl⟩
    rw [startModules, hok]
    exact ⟨_, sweep_calls .., registered_map_module _ _⟩
  · refine ⟨b', ws ++ [w], Adds.bind ?_ hdown, hcalls, Or.inr ⟨ws, w, rest, rfl, harr, hw⟩⟩
    rw [startModules, herr]
    exact adds_error

/-- The service discovery is reached if nothing fails until then. -/
theorem exists_called_reached (hooks : Call K M → Hook K M) (running : Hook K M)
    (harr : b.arr = front ++ d :: back) (hinit : ∀ w ∈ front ++ [d], initErr w.name = none) :
    ∃ rest, called (serve hooks initErr running b) =
      (b.calls ++ (front ++ [d]).map (.module .init)) ++ rest := by
  obtain ⟨b', done, ⟨cs, hcs, -⟩, hcalls, hdone⟩ := exists_adds_serve hooks initErr running b
  have harr' : b.arr = (front ++ [d]) ++ back := by rw [harr, List.append_cons]
  obtain ⟨more, hmore⟩ : ∃ more, done = (front ++ [d]) ++ more := by
    rcases hdone with rfl | ⟨ws, w, rest, rfl, hws, hw⟩
    · exact ⟨back, harr'⟩
    · rw [harr'] at hws
      rcases List.append_eq_append_iff.1 hws with ⟨as, has, -⟩ | ⟨as, has, hrest⟩
      · exact ⟨as ++ [w], by rw [has, List.append_assoc]⟩
      · -- the module that fails is none of those before
        cases as with
        | nil => exact ⟨[w], by rw [has, List.append_nil]⟩
        | cons a as =>
          obtain ⟨rfl, -⟩ := List.cons.inj hrest
          exact absurd (hinit w (by rw [has]; simp)) hw
  exact ⟨more.map (.module .init) ++ cs, by rw [hcs, hcalls, hmore]; simp⟩

/-- No module stands in the slice twice. -/
theorem nodup_arr (hcons : Consistent b.modules) : b.arr.Nodup := hcons.distinct.of_map

/-- **A moment at which the server is announced**: the components have been
started and the modules in front initialised, and since the announcement
there have been only calls that can fall there. -/
theorem eq_of_announced (hsettled : Settled hooks) {running : Hook K M}
    (hcons : Consistent b.modules) (hstarting : ∀ c ∈ b.calls, c.Starting)
    (harr : b.arr = front ++ d :: back) {now later : List (Call K M)}
    (hrun : called (serve hooks initErr running b) = now ++ later) (hnow : Announced d now) :
    ∃ z, now = b.calls ++ front.map (.module .init) ++ .module .init d :: z ∧
      ∀ c ∈ z, c.Between front d ∨ c = .module .beforeShutdown d := by
  have hfirst : .module .init d ∉ b.calls ++ front.map (.module .init) := by
    intro hmem
    rcases List.mem_append.1 hmem with hmem | hmem
    · exact hstarting _ hmem
    · obtain ⟨w, hw, heq⟩ := List.mem_map.1 hmem
      obtain ⟨-, rfl⟩ := Call.module.inj heq
      have hnodup := nodup_arr hcons
      rw [harr, List.nodup_append] at hnodup
      exact hnodup.2.2 w hw w List.mem_cons_self rfl
  obtain ⟨mid, hmid, hcases⟩ := serve_cases hsettled initErr running hcons harr
  obtain ⟨z, rfl, hz⟩ := Within.eq_append hnow hfirst hcases ⟨later, hrun.symm⟩
  refine ⟨z, rfl, ?_⟩
  intro c hc
  rcases List.mem_append.1 (hz.subset hc) with hc | hc
  · exact Or.inl (hmid c hc)
  · exact Or.inr (List.mem_singleton.1 hc)

end Boot

/-! ## The result -/

section Result

variable {calls z : List (Call K M)} {front : List (ModuleWrapper M)} {d : ModuleWrapper M}

/-- What had been called before the announcement has returned. -/
theorem mem_returned {before : List (Call K M)} {c e : Call K M} (hc : c ∈ before) :
    c ∈ returned (before ++ e :: z) := by
  rw [returned, List.dropLast_append_of_ne_nil (List.cons_ne_nil e z)]
  exact List.mem_append_left _ hc

/-- Since the announcement nothing was handed to the remote service. -/
theorem registered_of_between (hz : ∀ c ∈ z, c.Between front d ∨ c = .module .beforeShutdown d) :
    registered (calls ++ front.map (.module .init) ++ .module .init d :: z) =
      registered calls := by
  have hnone : registered z = [] := by
    rw [registered, List.filterMap_eq_nil_iff]
    intro c hc
    rcases hz c hc with hbetween | rfl
    · cases c with
      | register k => exact hbetween.elim
      | _ => rfl
    · rfl
  rw [List.append_cons, registered_append, registered_append, registered_append, hnone,
    registered_map_module]
  simp [registered]

/-- Which calls there can have been. -/
theorem cases_of_mem_moment (hstarting : ∀ c ∈ calls, c.Starting)
    (hz : ∀ c ∈ z, c.Between front d ∨ c = .module .beforeShutdown d) {c : Call K M}
    (hc : c ∈ calls ++ front.map (.module .init) ++ .module .init d :: z) :
    c.Starting ∨ c.Between front d ∨ c = .module .beforeShutdown d := by
  rcases List.mem_append.1 hc with hc | hc
  · rcases List.mem_append.1 hc with hc | hc
    · exact Or.inl (hstarting c hc)
    · obtain ⟨w, -, rfl⟩ := List.mem_map.1 hc
      exact Or.inr (Or.inl (Or.inl rfl))
  · rcases List.mem_cons.1 hc with rfl | hc
    · exact Or.inr (Or.inl (Or.inl rfl))
    · exact Or.inr (hz c hc)

/-- No component is being stopped. -/
theorem component_not_mem_moment (hstarting : ∀ c ∈ calls, c.Starting)
    (hz : ∀ c ∈ z, c.Between front d ∨ c = .module .beforeShutdown d) {phase : Phase} {k : K}
    (hphase : phase ≠ .init ∧ phase ≠ .afterInit) :
    .component phase k ∉ calls ++ front.map (.module .init) ++ .module .init d :: z := by
  intro hmem
  rcases cases_of_mem_moment hstarting hz hmem with (h | h) | h | h
  · exact hphase.1 h
  · exact hphase.2 h
  · exact h
  · cases h

/-- **The modules in front are up.** -/
theorem up_of_moment (hstarting : ∀ c ∈ calls, c.Starting)
    (hz : ∀ c ∈ z, c.Between front d ∨ c = .module .beforeShutdown d) (hd : d ∉ front)
    {w : ModuleWrapper M} (hw : w ∈ front) :
    Up w (calls ++ front.map (.module .init) ++ .module .init d :: z) where
  begun := mem_returned (List.mem_append_right _ (List.mem_map_of_mem hw))
  kept := by
    intro hmem
    rcases cases_of_mem_moment hstarting hz hmem with h | (h | h | ⟨-, hout, -⟩) | h
    · exact h
    · cases h
    · cases h
    · exact hout hw
    · obtain ⟨-, rfl⟩ := Call.module.inj h
      exact hd hw
  whole := by
    intro hmem
    rcases cases_of_mem_moment hstarting hz hmem with h | (h | h | ⟨h, -⟩) | h
    · exact h
    all_goals cases h

/-- **A moment at which the server is announced** and a module behind the
service discovery has not been initialised: that of the announcement. -/
theorem announced_early (hstarting : ∀ c ∈ calls, c.Starting) {back : List (ModuleWrapper M)}
    (hnodup : (front ++ d :: back).Nodup) {w : ModuleWrapper M} (hw : w ∈ back) :
    Announced d (calls ++ (front ++ [d]).map (.module .init)) ∧
      .module .init w ∉ calls ++ (front ++ [d]).map (.module .init) := by
  refine ⟨⟨by simp, ?_⟩, ?_⟩
  · intro hmem
    rcases List.mem_append.1 (List.dropLast_subset _ hmem) with hmem | hmem
    · exact hstarting _ hmem
    · obtain ⟨v, -, heq⟩ := List.mem_map.1 hmem
      cases heq
  · intro hmem
    rcases List.mem_append.1 hmem with hmem | hmem
    · exact hstarting _ hmem
    · obtain ⟨v, hv, heq⟩ := List.mem_map.1 hmem
      obtain ⟨-, rfl⟩ := Call.module.inj heq
      rw [List.append_cons, List.nodup_append] at hnodup
      exact hnodup.2.2 v hv v hw rfl

/-- **A server is announced only while it can serve.** Let `xs` and `ks` be
registered before `Start`, whose own names are free, and let the hooks
register what they like, except in front of the modules while these are
being told of the shutdown. At every moment at which the server is announced
the components of `ks` have been initialised and handed to the remote
service, which will be handed nothing more; none of them is being stopped;
and every module in front of the service discovery is up. In front are the
client, the server, the modules of `xs` and those a hook of a component put
there. Behind it is what such a hook registered with `RegisterModule` or
`RegisterModuleAfter`: if no `Init` fails until then, the server is announced
before any of these is initialised. -/
theorem announced_while_serving (hooks : Call K M → Hook K M)
    (initErr : GoString → Option GoString) (own : OwnModules M) (remoteService : Bool)
    (running : Hook K M) (xs : List (Registration M)) (ks : List K) (modules : Modules M)
    (hown : registerOwn own (registerAll .empty xs) = .ok modules)
    (hsettled : Boot.Settled hooks) :
    let run := called (Boot.start hooks initErr own remoteService running
      ⟨registerAll .empty xs, ks, []⟩)
    let up := Boot.startupComponents hooks remoteService ⟨modules, ks, []⟩
    let late := accepted modules (Boot.wanted hooks up.calls)
    let front := (placed .before late).reverse ++ ⟨own.rpcClient, lit "rpcClient"⟩ ::
      ⟨own.rpcServer, lit "rpcServer"⟩ :: (registerAll .empty xs).modulesArr
    let back := placed .after late
    up.arr = front ++ discovery own :: back ∧
    (∀ now later, run = now ++ later → Announced (discovery own) now →
      (∀ k ∈ ks, .component .init k ∈ returned now ∧ .component .afterInit k ∈ returned now ∧
        (remoteService = true → .register k ∈ returned now)) ∧
      registered now = registered run ∧
      (∀ k, .component .beforeShutdown k ∉ now ∧ .component .shutdown k ∉ now) ∧
      ∀ w ∈ front, Up w now) ∧
    ((∀ w ∈ front ++ [discovery own], initErr w.name = none) →
      ∀ w ∈ back, ∃ now later, run = now ++ later ∧ Announced (discovery own) now ∧
        .module .init w ∉ now) := by
  intro run up late front back
  obtain ⟨happ, harr⟩ := registerOwn_eq_ok (consistent_registerAll consistent_empty xs) hown
  obtain ⟨cs, hcalls, hmodules, hstarting, hks⟩ :=
    Boot.startupComponents_spec hooks remoteService ⟨modules, ks, []⟩
  obtain rfl : up.calls = cs := hcalls
  have hup : up.arr = front ++ discovery own :: back := by
    show up.modules.modulesArr = _
    rw [show up.modules = _ from hmodules, modulesArr_registerAll, harr]
    simp [withOwn, front, back, late, discovery]
  have hcons : Consistent up.modules := by
    rw [show up.modules = _ from hmodules]
    exact consistent_registerAll happ _
  have hrun : run = called (Boot.serve hooks initErr running up) := by
    simp only [run, Boot.start_eq_serve (b := ⟨registerAll .empty xs, ks, []⟩) hown]
    rfl
  have hnodup : (front ++ discovery own :: back).Nodup := hup ▸ Boot.nodup_arr hcons
  have hout : discovery own ∉ front := by
    intro hmem
    exact (List.nodup_append.1 hnodup).2.2 _ hmem _ List.mem_cons_self rfl
  refine ⟨hup, ?_, ?_⟩
  · intro now later hsplit hnow
    obtain ⟨z, rfl, hz⟩ :=
      Boot.eq_of_announced hsettled hcons hstarting hup (hrun ▸ hsplit) hnow
    refine ⟨?_, ?_, ?_, fun w => up_of_moment hstarting hz hout⟩
    · intro k hk
      obtain ⟨h₁, h₂, h₃⟩ := hks k hk
      exact ⟨mem_returned (List.mem_append_left _ h₁), mem_returned (List.mem_append_left _ h₂),
        fun h => mem_returned (List.mem_append_left _ (h₃ h))⟩
    · obtain ⟨b', done, ⟨cs, hcs, hnone⟩, hcalls', -⟩ :=
        Boot.exists_adds_serve hooks initErr running up
      rw [registered_of_between hz, hrun, hcs, hcalls', registered_append, registered_append,
        hnone, registered_map_module, List.append_nil, List.append_nil]
    · intro k
      exact ⟨component_not_mem_moment hstarting hz (by decide),
        component_not_mem_moment hstarting hz (by decide)⟩
  · intro hinit w hw
    obtain ⟨rest, hrest⟩ := Boot.exists_called_reached hooks running hup hinit
    obtain ⟨hearly, hmiss⟩ := announced_early hstarting hnodup hw
    exact ⟨_, rest, hrun.trans hrest, hearly, hmiss⟩

/-- A module, and a component that registers another one when it is
initialised: the first is up whenever the server is announced and the
component registered, and the second is not. -/
theorem announced_while_serving_cache :
    let hooks : Call ℕ ℕ → Hook ℕ ℕ
      | .component .init 0 => ⟨[⟨.registerModule, 5, lit "cache"⟩], []⟩
      | _ => ⟨[], []⟩
    let run := called (Boot.start hooks (fun _ => none) ⟨10, 11, 12⟩ true ⟨[], []⟩
      ⟨registerAll .empty [⟨.registerModule, 1, lit "store"⟩], [0], []⟩)
    (∀ now later, run = now ++ later → Announced ⟨12, lit "serviceDiscovery"⟩ now →
      Up ⟨1, lit "store"⟩ now ∧ .register 0 ∈ returned now) ∧
    ∃ now later, run = now ++ later ∧ Announced ⟨12, lit "serviceDiscovery"⟩ now ∧
      .module .init ⟨5, lit "cache"⟩ ∉ now := by
  intro hooks run
  obtain ⟨-, hnow, hlate⟩ := announced_while_serving hooks (fun _ => none) ⟨10, 11, 12⟩ true
    ⟨[], []⟩ [⟨.registerModule, 1, lit "store"⟩] [0] _ rfl (by rintro w x ⟨⟩)
  refine ⟨?_, hlate (fun _ _ => rfl) ⟨5, lit "cache"⟩ List.mem_cons_self⟩
  intro now later hsplit hannounced
  obtain ⟨hks, -, -, hup⟩ := hnow now later hsplit hannounced
  refine ⟨hup _ ?_, (hks 0 List.mem_cons_self).2.2 rfl⟩
  exact List.mem_append_right _ (List.mem_cons_of_mem _ (List.mem_cons_of_mem _ List.mem_cons_self))

end Result

end App

end Nrpc
