import Nrpc.App.Model.Modules
/-!
# The order modules live in

The map and the slice of an app always hold the same modules, each name
once (`Consistent`), and the slice is what was registered before, last
first, and then what was registered after, in order
(`modulesArr_registerAll`). `Start` puts its client and its server in front
and its service discovery at the end, and from there the order is that of
the loops: up along the slice twice, down along it twice
(`lifecycle_order`).
-/

namespace Nrpc

namespace App

variable {M : Type} {app app' : Modules M}

/-! ## Registrations -/

/-- Which of the three functions is called. -/
inductive Registrar
  | registerModule
  | registerModuleAfter
  | registerModuleBefore
deriving DecidableEq

/-- A call of a registering function. -/
structure Registration (M : Type) where
  registrar : Registrar
  mod : M
  name : GoString

namespace Registration

variable (x : Registration M)

def run (app : Modules M) : Option GoString × Modules M :=
  match x.registrar with
  | .registerModule => registerModule app x.mod x.name
  | .registerModuleAfter => registerModuleAfter app x.mod x.name
  | .registerModuleBefore => registerModuleBefore app x.mod x.name

/-- The module as it stands in the slice. -/
def wrapper : ModuleWrapper M := ⟨x.mod, x.name⟩

/-- Where the module goes. -/
def place : Place :=
  match x.registrar with
  | .registerModule | .registerModuleAfter => .after
  | .registerModuleBefore => .before

theorem run_eq : x.run app = register x.place app x.mod x.name := by
  unfold run place
  split <;> rfl

end Registration

/-- The modules behind a sequence of calls. -/
def registerAll (app : Modules M) (xs : List (Registration M)) : Modules M :=
  xs.foldl (fun app x => (x.run app).2) app

/-- The calls of a sequence that return nil. -/
def accepted (app : Modules M) : List (Registration M) → List (Registration M)
  | [] => []
  | x :: xs =>
    match x.run app with
    | (none, app') => x :: accepted app' xs
    | (some _, app') => accepted app' xs

/-- The modules some calls put in one place, in the order of the calls. -/
def placed (place : Place) (xs : List (Registration M)) : List (ModuleWrapper M) :=
  (xs.filter (·.place = place)).map Registration.wrapper

/-! ## The property -/

/-- **The map and the slice agree**, and no name is there twice. -/
structure Consistent (app : Modules M) : Prop where
  distinct : (app.modulesArr.map ModuleWrapper.name).Nodup
  agree : ∀ name mod, app.modulesMap.get? name = some mod ↔ ⟨mod, name⟩ ∈ app.modulesArr

/-- The calls of a whole run over some modules. -/
def lifecycle (arr : List (ModuleWrapper M)) : List (ModuleCall M) :=
  arr.map (ModuleCall.mk .init) ++ arr.map (ModuleCall.mk .afterInit) ++
    (arr.reverse.map (ModuleCall.mk .beforeShutdown) ++ arr.reverse.map (ModuleCall.mk .shutdown))

/-- **Every module is called once in each phase.** -/
structure OncePerPhase (arr : List (ModuleWrapper M)) (calls : List (ModuleCall M)) : Prop where
  called : ∀ phase, ∀ w ∈ arr, ⟨phase, w⟩ ∈ calls
  once : (calls.map fun c => (c.phase, c.wrapper.name)).Nodup

/-! ## The map and the slice -/

variable {place : Place} {mod : M} {name : GoString}

theorem consistent_empty : Consistent (Modules.empty : Modules M) where
  distinct := List.nodup_nil
  agree := by simp [Modules.empty]

theorem Consistent.mem_names_iff (h : Consistent app) :
    name ∈ app.modulesArr.map ModuleWrapper.name ↔ (app.modulesMap.get? name).isSome := by
  rw [List.mem_map, Option.isSome_iff_exists]
  constructor
  · rintro ⟨w, hw, rfl⟩
    exact ⟨w.mod, (h.agree _ _).2 hw⟩
  · rintro ⟨mod, hmod⟩
    exact ⟨⟨mod, name⟩, (h.agree _ _).1 hmod, rfl⟩

theorem Place.mem_add {w w' : ModuleWrapper M} {arr : List (ModuleWrapper M)} :
    w' ∈ place.add w arr ↔ w' = w ∨ w' ∈ arr := by
  cases place with
  | after => simp [Place.add, or_comm]
  | before => simp [Place.add]

/-- **What a registration does**: it is refused, for a name that is taken,
and changes nothing; or it adds the module to the map and in its place. -/
theorem register_cases :
    ((app.modulesMap.get? name).isSome ∧
      ∃ err, register place app mod name = (some err, app)) ∨
    app.modulesMap.get? name = none ∧ register place app mod name =
      (none, ⟨app.modulesMap.set name mod, place.add ⟨mod, name⟩ app.modulesArr⟩) := by
  cases hget : app.modulesMap.get? name with
  | none =>
    right
    simp [register, alreadyRegistered, hget]
  | some old =>
    left
    simp [register, alreadyRegistered, hget]

/-- A new module keeps the map and the slice in step. -/
theorem Consistent.add (h : Consistent app) (hfree : app.modulesMap.get? name = none) :
    Consistent ⟨app.modulesMap.set name mod, place.add ⟨mod, name⟩ app.modulesArr⟩ where
  distinct := by
    have hnew : name ∉ app.modulesArr.map ModuleWrapper.name := by
      rw [h.mem_names_iff, hfree]
      exact Bool.false_ne_true
    cases place with
    | after =>
      simp only [Place.add, List.map_append, List.map_cons, List.map_nil]
      refine List.nodup_append.2 ⟨h.distinct, List.nodup_singleton name, ?_⟩
      intro a ha b hb heq
      rw [List.mem_singleton.1 hb] at heq
      exact hnew (heq ▸ ha)
    | before =>
      simp only [Place.add, List.cons_append, List.nil_append, List.map_cons]
      exact List.nodup_cons.2 ⟨hnew, h.distinct⟩
  agree := by
    intro name' mod'
    rw [GoMap.get?_set, Place.mem_add, ModuleWrapper.mk.injEq]
    split
    · rename_i heq
      subst heq
      -- the name was free, so it is the new module's only
      have hold : (⟨mod', name'⟩ : ModuleWrapper M) ∉ app.modulesArr := by
        rw [← h.agree, hfree]
        intro hmod
        cases hmod
      constructor
      · intro hmod
        exact Or.inl ⟨(Option.some.inj hmod).symm, rfl⟩
      · rintro (⟨rfl, -⟩ | hmem)
        · rfl
        · exact absurd hmem hold
    · rename_i hne
      rw [h.agree]
      constructor
      · exact Or.inr
      · rintro (⟨-, heq⟩ | hmem)
        · exact absurd heq hne
        · exact hmem

/-- **Every registration keeps them in step.** -/
theorem Consistent.register (h : Consistent app) :
    Consistent (register place app mod name).2 := by
  rcases @register_cases M app place mod name with ⟨-, err, heq⟩ | ⟨hfree, heq⟩
  · rw [heq]
    exact h
  · rw [heq]
    exact h.add hfree

/-- And so does a sequence of calls. -/
theorem consistent_registerAll (h : Consistent app) (xs : List (Registration M)) :
    Consistent (registerAll app xs) := by
  induction xs generalizing app with
  | nil => exact h
  | cons x xs ih =>
    refine ih ?_
    show Consistent (x.run app).2
    rw [x.run_eq]
    exact h.register

/-- `GetModule` finds what stands in the slice. -/
theorem getModule_eq_ok_iff (h : Consistent app) :
    getModule app name = .ok mod ↔ ⟨mod, name⟩ ∈ app.modulesArr := by
  rw [← h.agree, getModule]
  cases app.modulesMap.get? name with
  | none => simp
  | some mod' => simp

/-! ## The order -/

/-- An accepted call puts its module in its place. -/
theorem accepted_cons (app : Modules M) (x : Registration M) (xs : List (Registration M)) :
    (accepted app (x :: xs) = accepted app xs ∧ registerAll app (x :: xs) = registerAll app xs) ∨
    ∃ app', app'.modulesArr = x.place.add x.wrapper app.modulesArr ∧
      accepted app (x :: xs) = x :: accepted app' xs ∧
      registerAll app (x :: xs) = registerAll app' xs := by
  rcases @register_cases M app x.place x.mod x.name with ⟨-, err, heq⟩ | ⟨-, heq⟩
  · left
    simp only [accepted, registerAll, List.foldl_cons, x.run_eq, heq, and_self]
  · right
    refine ⟨⟨app.modulesMap.set x.name x.mod, x.place.add x.wrapper app.modulesArr⟩, rfl, ?_, ?_⟩
    · simp only [accepted, x.run_eq, heq, Registration.wrapper]
    · simp only [registerAll, List.foldl_cons, x.run_eq, heq, Registration.wrapper]

/-- **The slice is what was put in front, last first, what was there, and
what was put behind.** -/
theorem modulesArr_registerAll (app : Modules M) (xs : List (Registration M)) :
    (registerAll app xs).modulesArr =
      (placed .before (accepted app xs)).reverse ++ app.modulesArr ++
        placed .after (accepted app xs) := by
  induction xs generalizing app with
  | nil => simp [registerAll, accepted, placed]
  | cons x xs ih =>
    rcases accepted_cons app x xs with ⟨hacc, hreg⟩ | ⟨app', harr, hacc, hreg⟩
    · rw [hacc, hreg, ih]
    · rw [hacc, hreg, ih, harr]
      cases hplace : x.place with
      | after => simp [placed, Place.add, hplace]
      | before => simp [placed, Place.add, hplace]

/-- The names `Start` takes. -/
def ownNames : List GoString := [lit "rpcServer", lit "rpcClient", lit "serviceDiscovery"]

/-- The slice behind the registrations of `Start`. -/
def withOwn (own : OwnModules M) (arr : List (ModuleWrapper M)) : List (ModuleWrapper M) :=
  ⟨own.rpcClient, lit "rpcClient"⟩ :: ⟨own.rpcServer, lit "rpcServer"⟩ ::
    (arr ++ [⟨own.serviceDiscovery, lit "serviceDiscovery"⟩])

/-- A registration that must succeed and does. -/
theorem orFatal_register_eq_ok_iff {text : GoString} :
    orFatal text (register place app mod name) = .ok app' ↔
      app.modulesMap.get? name = none ∧
        app' = ⟨app.modulesMap.set name mod, place.add ⟨mod, name⟩ app.modulesArr⟩ := by
  rcases @register_cases M app place mod name with ⟨htaken, err, heq⟩ | ⟨hfree, heq⟩
  · rw [heq]
    constructor
    · intro h
      cases h
    · rintro ⟨hfree, -⟩
      rw [hfree] at htaken
      cases htaken
  · rw [heq]
    constructor
    · intro h
      exact ⟨hfree, (Outcome.ok.inj h).symm⟩
    · rintro ⟨-, rfl⟩
      rfl

/-- **`Start` gets past its registrations exactly when nobody has taken a
name of its own**, and then its modules stand around the others. -/
theorem registerOwn_eq_ok_iff {own : OwnModules M} (h : Consistent app) :
    (∃ app', registerOwn own app = .ok app') ↔
      ∀ name ∈ ownNames, name ∉ app.modulesArr.map ModuleWrapper.name := by
  have hfree : (∀ name ∈ ownNames, name ∉ app.modulesArr.map ModuleWrapper.name) ↔
      ∀ name ∈ ownNames, app.modulesMap.get? name = none := by
    refine forall₂_congr fun name _ => ?_
    rw [h.mem_names_iff, Option.not_isSome_iff_eq_none]
  rw [hfree]
  constructor
  · rintro ⟨app', hown⟩
    obtain ⟨app₁, h₁, hown⟩ := Outcome.bind_eq_ok_iff.1 hown
    obtain ⟨app₂, h₂, h₃⟩ := Outcome.bind_eq_ok_iff.1 hown
    obtain ⟨hserver, rfl⟩ := orFatal_register_eq_ok_iff.1 h₁
    obtain ⟨hclient, rfl⟩ := orFatal_register_eq_ok_iff.1 h₂
    obtain ⟨hdiscovery, -⟩ := orFatal_register_eq_ok_iff.1 h₃
    rw [GoMap.get?_set_of_ne (by decide)] at hclient
    rw [GoMap.get?_set_of_ne (by decide), GoMap.get?_set_of_ne (by decide)] at hdiscovery
    simpa [ownNames] using ⟨hserver, hclient, hdiscovery⟩
  · intro hnone
    have hserver := hnone (lit "rpcServer") (by simp [ownNames])
    have hclient := hnone (lit "rpcClient") (by simp [ownNames])
    have hdiscovery := hnone (lit "serviceDiscovery") (by simp [ownNames])
    refine ⟨_, Outcome.bind_eq_ok_iff.2 ⟨_, orFatal_register_eq_ok_iff.2 ⟨hserver, rfl⟩,
      Outcome.bind_eq_ok_iff.2 ⟨_, orFatal_register_eq_ok_iff.2 ⟨?_, rfl⟩,
        orFatal_register_eq_ok_iff.2 ⟨?_, rfl⟩⟩⟩⟩
    · rw [GoMap.get?_set_of_ne (by decide)]
      exact hclient
    · rw [GoMap.get?_set_of_ne (by decide), GoMap.get?_set_of_ne (by decide)]
      exact hdiscovery

theorem registerOwn_eq_ok {own : OwnModules M} (h : Consistent app)
    (hown : registerOwn own app = .ok app') :
    Consistent app' ∧ app'.modulesArr = withOwn own app.modulesArr := by
  obtain ⟨app₁, h₁, hown⟩ := Outcome.bind_eq_ok_iff.1 hown
  obtain ⟨app₂, h₂, h₃⟩ := Outcome.bind_eq_ok_iff.1 hown
  obtain ⟨hserver, rfl⟩ := orFatal_register_eq_ok_iff.1 h₁
  obtain ⟨hclient, rfl⟩ := orFatal_register_eq_ok_iff.1 h₂
  obtain ⟨hdiscovery, rfl⟩ := orFatal_register_eq_ok_iff.1 h₃
  exact ⟨((h.add hserver).add hclient).add hdiscovery, rfl⟩

/-! ## The loops -/

variable {initErr : GoString → Option GoString} {arr : List (ModuleWrapper M)}

/-- When no `Init` fails, every module is reached. -/
theorem initLoop_eq (h : ∀ w ∈ arr, initErr w.name = none) :
    initLoop initErr arr = .ok (arr.map (ModuleCall.mk .init)) := by
  induction arr with
  | nil => rfl
  | cons w ws ih =>
    have hw := h w List.mem_cons_self
    have hws := ih fun w' hw' => h w' (List.mem_cons_of_mem w hw')
    simp only [initLoop, hw, hws, Outcome.ok_bind, Outcome.pure_eq, List.map_cons]

/-- **A loop down the slice stays inside it and visits it in reverse.** -/
theorem downLoop_eq (phase : Phase) {i : ℕ} (hi : i ≤ arr.length) :
    downLoop phase arr i = .ok ((arr.take i).reverse.map (ModuleCall.mk phase)) := by
  induction i with
  | zero => rfl
  | succ i ih =>
    have hlt : i < arr.length := by omega
    have hindex : (Outcome.index arr i : Outcome GoString _) = .ok arr[i] := by
      simp [Outcome.index, hlt]
    rw [downLoop, hindex, ih (by omega), List.take_succ_eq_append_getElem hlt]
    simp only [Outcome.ok_bind, Outcome.pure_eq, List.reverse_append, List.reverse_singleton,
      List.singleton_append, List.map_cons]

theorem shutdownModules_eq (app : Modules M) :
    shutdownModules app = .ok (app.modulesArr.reverse.map (ModuleCall.mk .beforeShutdown) ++
      app.modulesArr.reverse.map (ModuleCall.mk .shutdown)) := by
  simp only [shutdownModules, downLoop_eq _ (Nat.le_refl _), List.take_length, Outcome.ok_bind,
    Outcome.pure_eq]

/-- **A run in which no `Init` fails.** -/
theorem start_eq {own : OwnModules M} (hown : registerOwn own app = .ok app')
    (hinit : ∀ w ∈ app'.modulesArr, initErr w.name = none) :
    start initErr own app = .ok (lifecycle app'.modulesArr) := by
  simp only [start, hown, startModules, initLoop_eq hinit, shutdownModules_eq, Outcome.ok_bind,
    Outcome.pure_eq, lifecycle]

/-! ## Once in each phase -/

/-- The phase and the name of a call. -/
def ModuleCall.key (c : ModuleCall M) : Phase × GoString := (c.phase, c.wrapper.name)

/-- One pass over modules of different names. -/
theorem nodup_pass (phase : Phase) (h : (arr.map ModuleWrapper.name).Nodup) :
    ((arr.map (ModuleCall.mk phase)).map ModuleCall.key).Nodup := by
  have hkeys : (arr.map (ModuleCall.mk phase)).map ModuleCall.key =
      (arr.map ModuleWrapper.name).map (Prod.mk phase) := by
    simp [ModuleCall.key, Function.comp_def]
  rw [hkeys]
  exact h.map (Prod.mk_right_injective phase)

/-- Calls of different phases are different. -/
theorem nodup_passes {cs ds : List (ModuleCall M)} (hcs : (cs.map ModuleCall.key).Nodup)
    (hds : (ds.map ModuleCall.key).Nodup) (hne : ∀ c ∈ cs, ∀ d ∈ ds, c.phase ≠ d.phase) :
    ((cs ++ ds).map ModuleCall.key).Nodup := by
  rw [List.map_append, List.nodup_append]
  refine ⟨hcs, hds, ?_⟩
  intro a ha b hb heq
  obtain ⟨c, hc, rfl⟩ := List.mem_map.1 ha
  obtain ⟨d, hd, rfl⟩ := List.mem_map.1 hb
  exact hne c hc d hd (congrArg Prod.fst heq)

/-- **A run over modules of different names calls each once in each
phase.** -/
theorem oncePerPhase_lifecycle (h : (arr.map ModuleWrapper.name).Nodup) :
    OncePerPhase arr (lifecycle arr) where
  called := by
    intro phase w hw
    cases phase <;> simp [lifecycle, hw]
  once := by
    have hrev : (arr.reverse.map ModuleWrapper.name).Nodup := by
      rw [List.map_reverse]
      exact List.nodup_reverse.2 h
    have hup := nodup_passes (nodup_pass .init h) (nodup_pass .afterInit h) (by simp)
    have hdown := nodup_passes (nodup_pass .beforeShutdown hrev) (nodup_pass .shutdown hrev)
      (by simp)
    refine nodup_passes hup hdown ?_
    intro c hc d hd
    simp only [List.mem_append, List.mem_map] at hc hd
    rcases hc with ⟨_, -, rfl⟩ | ⟨_, -, rfl⟩ <;> rcases hd with ⟨_, -, rfl⟩ | ⟨_, -, rfl⟩ <;> simp

/-! ## The result -/

/-- **The lifecycle of modules.** For every sequence of registrations the
map and the slice hold the same modules, each name once, and the slice is
the accepted modules registered before, last first, and those registered
after. `Start` gets past its own registrations exactly when none of its
names is taken; then its client is first, its server second and its service
discovery last, and if no `Init` fails, the run is the two passes up and
the two passes down this slice, with every module once in each. -/
theorem lifecycle_order (own : OwnModules M) (initErr : GoString → Option GoString)
    (xs : List (Registration M)) :
    let mine := (placed .before (accepted .empty xs)).reverse ++ placed .after (accepted .empty xs)
    let app := registerAll .empty xs
    Consistent app ∧ app.modulesArr = mine ∧
    ((∃ app', registerOwn own app = .ok app') ↔
      ∀ name ∈ ownNames, name ∉ mine.map ModuleWrapper.name) ∧
    ∀ app', registerOwn own app = .ok app' →
      Consistent app' ∧ app'.modulesArr = withOwn own mine ∧
      ((∀ w ∈ withOwn own mine, initErr w.name = none) →
        start initErr own app = .ok (lifecycle (withOwn own mine)) ∧
        OncePerPhase (withOwn own mine) (lifecycle (withOwn own mine))) := by
  intro mine app
  have happ : Consistent app := consistent_registerAll consistent_empty xs
  have harr : app.modulesArr = mine := by
    rw [modulesArr_registerAll]
    simp [Modules.empty, mine]
  refine ⟨happ, harr, ?_, ?_⟩
  · rw [registerOwn_eq_ok_iff happ, harr]
  · intro app' hown
    obtain ⟨happ', harr'⟩ := registerOwn_eq_ok happ hown
    rw [harr] at harr'
    refine ⟨happ', harr', ?_⟩
    intro hinit
    rw [← harr'] at hinit ⊢
    exact ⟨start_eq hown hinit, oncePerPhase_lifecycle happ'.distinct⟩

/-- Four modules and a fifth whose name is taken: the third comes before the
second, both before the first, and the fifth is not there. -/
theorem lifecycle_order_mods :
    let xs : List (Registration ℕ) :=
      [⟨.registerModule, 1, lit "mod1"⟩, ⟨.registerModuleBefore, 2, lit "mod2"⟩,
        ⟨.registerModuleBefore, 3, lit "mod3"⟩, ⟨.registerModuleAfter, 4, lit "mod4"⟩,
        ⟨.registerModule, 5, lit "mod1"⟩]
    let arr : List (ModuleWrapper ℕ) :=
      [⟨11, lit "rpcClient"⟩, ⟨10, lit "rpcServer"⟩, ⟨3, lit "mod3"⟩, ⟨2, lit "mod2"⟩,
        ⟨1, lit "mod1"⟩, ⟨4, lit "mod4"⟩, ⟨12, lit "serviceDiscovery"⟩]
    start (fun _ => none) ⟨10, 11, 12⟩ (registerAll .empty xs) = .ok (lifecycle arr) ∧
      OncePerPhase arr (lifecycle arr) := by
  intro xs arr
  obtain ⟨-, -, hiff, hown⟩ := lifecycle_order ⟨10, 11, 12⟩ (fun _ => none) xs
  obtain ⟨app', happ'⟩ := hiff.2 (by decide)
  exact (hown app' happ').2.2 fun _ _ => rfl

end App

end Nrpc
