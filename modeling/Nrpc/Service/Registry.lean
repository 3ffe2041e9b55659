import Nrpc.Service.Model.Remote
import Nrpc.Service.Route
/-!
# When every registered remote can be called

`Register` checks that no two services have one name. Inside a service
nothing is checked: the names come from the options and from the renaming
function, two methods renamed to one name leave one of them in the table,
and a name with a dot or without a visible character is entered under a key
no route leads to (`registry_loses`).

`WellNamed` is what the check on services is for the rest. Each accepted
component is reached, method by method, by the route made of its names
exactly when the names of every accepted component are well chosen
(`registry_faithful_iff`).
-/

namespace Nrpc

namespace Service

open Server

variable {C T M O F : Type} {r r' : Registry T F} {remotes new : GoMap GoString (Remote T F)}

/-! ## Registrations -/

/-- A call of `Register`, with the order its range takes. -/
structure Registration (T F : Type) where
  comp : Component T F
  opts : List Opt
  order : List GoString

namespace Registration

variable (x : Registration T F)

def service : GoString := serviceName x.comp x.opts

/-- The name a method of the component is registered under. -/
def name (m : Method T F) : GoString := registeredName (applyOptions x.opts).nameFunc m

/-- The methods of the component `isRemoteMethod` accepts. -/
def Suitable (m : Method T F) : Prop := m ∈ x.comp.methods ∧ isRemoteMethod m = true

/-- The remote a method of the component is to be called by. -/
def remote (m : Method T F) : Remote T F := newRemote x.comp.receiver m

/-- The range of `Register` visits each remote of the service once. -/
def Ordered : Prop := ∀ remotes, extractRemote x.comp x.opts = .ok remotes → remotes.Ranges x.order

end Registration

/-- The registry behind a sequence of calls. -/
def registerAll (r : Registry T F) : List (Registration T F) → Registry T F
  | [] => r
  | x :: xs =>
    match register r x.comp x.opts x.order with
    | .ok r' => registerAll r' xs
    | .error _ => registerAll r xs

/-- The calls of a sequence that return nil. -/
def accepted (r : Registry T F) : List (Registration T F) → List (Registration T F)
  | [] => []
  | x :: xs =>
    match register r x.comp x.opts x.order with
    | .ok r' => x :: accepted r' xs
    | .error _ => accepted r xs

/-! ## The property and the condition -/

/-- The route of a method. -/
def routeOf (svType service method : GoString) : GoString :=
  svType ++ dot :: (service ++ dot :: method)

/-- **The component is reached**: a request with the route of a suitable
method is handled by that method. -/
def Reached (remotes : GoMap GoString (Remote T (Func C M O)))
    (x : Registration T (Func C M O)) : Prop :=
  ∀ m, x.Suitable m → ∀ svType, Legible svType →
    lookup remotes (routeOf svType x.service (x.name m)) = .ok (x.remote m) ∧
    ∀ (rt : Runtime C T M O) ctx req, req.route = routeOf svType x.service (x.name m) →
      processRemoteMessage rt remotes ctx req =
        handleRemote rt (x.remote m) ctx ((req.msg.map Msg.data).getD [])

/-- **The condition**: the names of a component are legible, and its
suitable methods have different ones. -/
structure WellNamed (x : Registration T F) : Prop where
  service : Legible x.service
  legible : ∀ m, x.Suitable m → Legible (x.name m)
  injective : ∀ m m', x.Suitable m → x.Suitable m' → x.name m = x.name m' → m.name = m'.name

/-! ## Routes -/

/-- **A route of three names is decoded exactly when they are legible.** -/
theorem decodeRoute_routeOf {svType service method : GoString} {rt : Route}
    (hsv : Legible svType) :
    decodeRoute (routeOf svType service method) = .ok rt ↔
      Legible service ∧ Legible method ∧ rt = ⟨svType, service, method⟩ := by
  have hstring : routeOf svType service method = Route.string ⟨svType, service, method⟩ :=
    (if_pos hsv.ne_nil).symm
  constructor
  · intro h
    obtain ⟨hcount, hfilled⟩ : IsRoute (routeOf svType service method) := by
      obtain ⟨hprintable, heq⟩ := decodeRoute_eq_ok_iff.1 h
      exact heq ▸ isRoute_string hprintable
    -- two dots stand between the names, so there is none in them
    have hdots : (routeOf svType service method).count dot =
        service.count dot + method.count dot + 2 := by
      have := List.count_eq_zero.2 hsv.2
      simp only [routeOf, List.count_append, List.count_cons_self]
      omega
    have hservice : dot ∉ service := List.count_eq_zero.1 (by omega)
    have hmethod : dot ∉ method := List.count_eq_zero.1 (by omega)
    have hsplit := splitOn_eq_three_iff.2 ⟨hsv.2, hservice, hmethod, rfl⟩
    have hblank : ∀ field ∈ [svType, service, method], trimSpace field ≠ [] := hsplit ▸ hfilled
    have hr : Route.Printable ⟨svType, service, method⟩ :=
      ⟨Or.inr hsv, ⟨hblank service (by simp), hservice⟩, ⟨hblank method (by simp), hmethod⟩⟩
    rw [hstring, decodeRoute_string hr] at h
    exact ⟨hr.service, hr.method, (Except.ok.inj h).symm⟩
  · rintro ⟨hservice, hmethod, rfl⟩
    rw [hstring]
    exact decodeRoute_string ⟨Or.inr hsv, hservice, hmethod⟩

/-- A route leads to the remote that stands under its two names, when they
are legible. -/
theorem lookup_routeOf {svType service method : GoString} {remote : Remote T F}
    (hsv : Legible svType) :
    lookup remotes (routeOf svType service method) = .ok remote ↔
      Legible service ∧ Legible method ∧
        remotes.get? (service ++ dot :: method) = some remote := by
  constructor
  · intro h
    unfold lookup at h
    split at h
    · cases h
    · rename_i rt hdecode
      obtain ⟨hservice, hmethod, rfl⟩ := (decodeRoute_routeOf hsv).1 hdecode
      split at h
      · cases h
      · rename_i remote' hget
        obtain rfl : remote' = remote := by injection h
        exact ⟨hservice, hmethod, hget⟩
  · rintro ⟨hservice, hmethod, hget⟩
    have hdecode := (decodeRoute_routeOf hsv).2 ⟨hservice, hmethod, rfl⟩
    have hshort : remotes.get? (Route.short ⟨svType, service, method⟩) = some remote := hget
    simp only [lookup, hdecode, hshort]

/-! ## Tables -/

/-- A remote of a service is made of one of its methods. -/
theorem exists_method_of_suitable {receiver : ℕ} {methods : List (Method T F)}
    {nameFunc : Option (GoString → GoString)} {name : GoString} {remote : Remote T F}
    (h : (suitableRemoteMethods receiver methods nameFunc).get? name = some remote) :
    ∃ m ∈ methods, isRemoteMethod m = true ∧ remote = newRemote receiver m := by
  -- what a round of the loop enters is made of the method of the round
  refine List.foldlRecOn (motive := fun remotes : GoMap GoString (Remote T F) =>
    remotes.get? name = some remote →
      ∃ m ∈ methods, isRemoteMethod m = true ∧ remote = newRemote receiver m)
    methods _ (by simp) ?_ h
  intro remotes ih m hm h
  split at h
  · rename_i hremote
    rw [GoMap.get?_set] at h
    split at h
    · exact ⟨m, hm, hremote, (Option.some.inj h).symm⟩
    · exact ih h
  · exact ih h

/-- What a method writes into the table of its service under a name. -/
def Registration.writes (x : Registration T F) (k : GoString) (m : Method T F) :
    Option (Remote T F) :=
  if isRemoteMethod m = true ∧ x.name m = k then some (x.remote m) else none

/-- The table of a component's service, as a loop over its methods. -/
theorem get?_round {x : Registration T F} {k : GoString} (remotes : GoMap GoString (Remote T F))
    (m : Method T F) :
    (if isRemoteMethod m then remotes.set (x.name m) (x.remote m) else remotes).get? k =
      (x.writes k m).or (remotes.get? k) := by
  unfold Registration.writes
  cases isRemoteMethod m with
  | false => simp
  | true =>
    rw [if_pos rfl, GoMap.get?_set]
    by_cases hk : x.name m = k
    · simp [hk]
    · simp [hk, Ne.symm hk]

/-- **A method whose name no other suitable one has is in the table of its
service.** -/
theorem get?_suitable {x : Registration T F} {m : Method T F} (hm : x.Suitable m)
    (hinj : ∀ m', x.Suitable m' → x.name m' = x.name m → m' = m) :
    (suitableRemoteMethods x.comp.receiver x.comp.methods (applyOptions x.opts).nameFunc).get?
      (x.name m) = some (x.remote m) := by
  refine GoMap.get?_foldl_of_some get?_round ?_ ?_
  · intro m' hm' w hw
    obtain ⟨⟨hremote, hname⟩, hw⟩ := Option.ite_none_right_eq_some.1 hw
    obtain rfl := Option.some.inj hw
    rw [hinj m' ⟨hm', hremote⟩ hname]
  · exact ⟨m, hm.1, by simp [Registration.writes, hm.2]⟩

/-- A service with a remote has a suitable method. -/
theorem exists_suitable {x : Registration T F}
    (h : (suitableRemoteMethods x.comp.receiver x.comp.methods
      (applyOptions x.opts).nameFunc).keys ≠ ∅) : ∃ m, x.Suitable m := by
  obtain ⟨k, hk⟩ := Finset.nonempty_iff_ne_empty.2 h
  obtain ⟨remote, hget⟩ := Option.isSome_iff_exists.1 (GoMap.mem_keys.1 hk)
  obtain ⟨m, hm, hremote, -⟩ := exists_method_of_suitable hget
  exact ⟨m, hm, hremote⟩

/-- What a round of `Register` writes under a key. -/
theorem get?_addRound {service k : GoString} (remotes : GoMap GoString (Remote T F))
    (name : GoString) :
    (match new.get? name with
      | some remote => remotes.set (service ++ dot :: name) remote
      | none => remotes).get? k =
      (if k = service ++ dot :: name then new.get? name else none).or (remotes.get? k) := by
  cases new.get? name with
  | none => simp
  | some remote =>
    rw [GoMap.get?_set]
    by_cases hk : k = service ++ dot :: name
    · simp [hk]
    · simp [hk]

/-- **The remotes of a service are entered under its name.** -/
theorem get?_addRemotes {service name : GoString} {order : List GoString} {remote : Remote T F}
    (horder : new.Ranges order) (hname : new.get? name = some remote) :
    (addRemotes service new order remotes).get? (service ++ dot :: name) = some remote := by
  refine GoMap.get?_foldl_of_some get?_addRound ?_ ?_
  · intro name' _ w hw
    obtain ⟨hkey, hw⟩ := Option.ite_none_right_eq_some.1 hw
    obtain rfl : name = name' := by simpa using hkey
    exact Option.some.inj (hw.symm.trans hname)
  · have hmem : name ∈ order := (horder.2 name).2 (by rw [hname]; rfl)
    exact ⟨name, hmem, by simp [hname]⟩

/-- Nothing else is entered. -/
theorem get?_addRemotes_of_ne {service k : GoString} {order : List GoString}
    (hk : ∀ name, k = service ++ dot :: name → new.get? name = none) :
    (addRemotes service new order remotes).get? k = remotes.get? k := by
  refine GoMap.get?_foldl_of_none get?_addRound fun name _ => ?_
  split
  · rename_i hkey
    exact hk name hkey
  · rfl

/-- **A `Register` that returns nil.** -/
theorem register_eq_ok {x : Registration T F}
    (h : register r x.comp x.opts x.order = .ok r') :
    r.services.get? x.service = none ∧ ∃ new, extractRemote x.comp x.opts = .ok new ∧
      r'.services = r.services.set x.service ⟨x.service, x.comp, new⟩ ∧
      r'.remotes = addRemotes x.service new x.order r.remotes := by
  simp only [register] at h
  split at h
  · cases h
  · rename_i hfree
    split at h
    · cases h
    · rename_i new hextract
      obtain rfl : _ = r' := by injection h
      exact ⟨by simpa [Registration.service] using hfree, new, hextract, rfl, rfl⟩

/-- The remotes of a component that are not refused. -/
theorem extractRemote_eq_ok {x : Registration T F} (h : extractRemote x.comp x.opts = .ok new) :
    new = suitableRemoteMethods x.comp.receiver x.comp.methods (applyOptions x.opts).nameFunc ∧
      new.keys ≠ ∅ := by
  simp only [extractRemote] at h
  split at h
  · cases h
  · split at h
    · cases h
    · split at h
      · split at h <;> cases h
      · rename_i hkeys
        obtain rfl : _ = new := by injection h
        exact ⟨rfl, hkeys⟩

/-- An order of the table of the service is one of the range. -/
theorem ordered_of_ranges {x : Registration T F}
    (h : (suitableRemoteMethods x.comp.receiver x.comp.methods
      (applyOptions x.opts).nameFunc).Ranges x.order) : x.Ordered := by
  intro remotes hextract
  obtain ⟨rfl, -⟩ := extractRemote_eq_ok hextract
  exact h

/-! ## Sequences of calls -/

/-- The methods of some components stand in a registry, each under its key. -/
structure Entered (r : Registry T F) (known : Registration T F → Prop) : Prop where
  services : ∀ x, known x → (r.services.get? x.service).isSome
  remotes : ∀ x, known x → ∀ m, x.Suitable m →
    r.remotes.get? (x.service ++ dot :: x.name m) = some (x.remote m)

/-- Methods of a component with one name are one method. -/
theorem eq_of_name_eq {x : Registration T F} {m m' : Method T F} (hm : x.Suitable m)
    (hm' : x.Suitable m') (h : m.name = m'.name) : m = m' :=
  List.inj_on_of_nodup_map x.comp.distinct hm.1 hm'.1 h

/-- Keys of services without a dot name their service. -/
theorem service_eq_of_key_eq {service service' name name' : GoString} (h : dot ∉ service)
    (h' : dot ∉ service') (hkey : service ++ dot :: name = service' ++ dot :: name') :
    service = service' := by
  have hhead := congrArg (fun key => (key.splitOn dot).head?) hkey
  simp only [List.splitOn_append_cons_self_of_not_mem h,
    List.splitOn_append_cons_self_of_not_mem h', List.head?_cons] at hhead
  exact Option.some.inj hhead

/-- **A call that returns nil keeps what is entered and enters its
component.** -/
theorem Entered.register {known : Registration T F → Prop} {y : Registration T F}
    (hr : Entered r known) (hknown : ∀ x, known x → WellNamed x) (hy : WellNamed y)
    (horder : y.Ordered) (h : register r y.comp y.opts y.order = .ok r') :
    Entered r' (fun x => known x ∨ x = y) := by
  obtain ⟨hfree, new, hextract, hservices, hremotes⟩ := register_eq_ok h
  constructor
  · rintro x (hx | rfl)
    · rw [hservices, GoMap.get?_set]
      split
      · rfl
      · exact hr.services x hx
    · rw [hservices, GoMap.get?_set, if_pos rfl]
      rfl
  · rintro x (hx | rfl) m hm
    · -- the service of `y` was not taken, so its keys are new
      rw [hremotes, get?_addRemotes_of_ne]
      · exact hr.remotes x hx m hm
      · intro name hkey
        have hsame := service_eq_of_key_eq (hknown x hx).service.2 hy.service.2 hkey
        have htaken := hr.services x hx
        rw [hsame, hfree] at htaken
        cases htaken
    · rw [hremotes]
      refine get?_addRemotes (horder new hextract) ?_
      rw [(extractRemote_eq_ok hextract).1]
      refine get?_suitable hm ?_
      intro m' hm' hname
      exact eq_of_name_eq hm' hm (hy.injective m' m hm' hm hname)

/-- **A sequence of calls keeps what is entered and enters every accepted
component.** -/
theorem Entered.registerAll {xs : List (Registration T F)} {known : Registration T F → Prop}
    (hr : Entered r known) (hknown : ∀ x, known x → WellNamed x)
    (horder : ∀ x ∈ xs, x.Ordered) (hnamed : ∀ x ∈ accepted r xs, WellNamed x) :
    Entered (registerAll r xs) (fun x => known x ∨ x ∈ accepted r xs) := by
  induction xs generalizing r known with
  | nil => simpa [Service.registerAll, accepted] using hr
  | cons y xs ih =>
    have hrest : ∀ x ∈ xs, x.Ordered := fun x hx => horder x (by simp [hx])
    unfold Service.registerAll accepted
    unfold accepted at hnamed
    split
    · rename_i r' hregister
      simp only [hregister] at hnamed ⊢
      have hy : WellNamed y := hnamed y (by simp)
      have hstep := hr.register hknown hy (horder y (by simp)) hregister
      have hboth : ∀ x, known x ∨ x = y → WellNamed x := by
        rintro x (hx | rfl)
        · exact hknown x hx
        · exact hy
      have hlast := ih hstep hboth hrest fun x hx => hnamed x (by simp [hx])
      simpa only [List.mem_cons, or_assoc] using hlast
    · rename_i e hregister
      simp only [hregister] at hnamed ⊢
      exact ih hr hknown hrest hnamed

/-- An accepted component has a suitable method. -/
theorem exists_suitable_of_accepted {xs : List (Registration T F)} {x : Registration T F}
    (h : x ∈ accepted r xs) : ∃ m, x.Suitable m := by
  induction xs generalizing r with
  | nil => cases h
  | cons y xs ih =>
    unfold accepted at h
    split at h
    · rename_i r' hregister
      rcases List.mem_cons.1 h with rfl | h
      · obtain ⟨-, new, hextract, -⟩ := register_eq_ok hregister
        obtain ⟨rfl, hkeys⟩ := extractRemote_eq_ok hextract
        exact exists_suitable hkeys
      · exact ih h
    · exact ih h

/-! ## The result -/

/-- **The registry is faithful exactly when the names are well chosen.** In
the registry behind any sequence of `Register` calls, every suitable method
of every accepted component is the one its route dispatches to if and only
if the accepted components have legible names that tell their methods
apart. -/
theorem registry_faithful_iff (xs : List (Registration T (Func C M O)))
    (horder : ∀ x ∈ xs, x.Ordered) :
    (∀ x ∈ accepted .empty xs, Reached (registerAll .empty xs).remotes x) ↔
      ∀ x ∈ accepted .empty xs, WellNamed x := by
  constructor
  · intro hreached x hx
    have hsv : Legible (lit "sv") := ⟨by decide +kernel, by decide⟩
    have hall : ∀ m, x.Suitable m → Legible x.service ∧ Legible (x.name m) ∧
        (registerAll .empty xs).remotes.get? (x.service ++ dot :: x.name m) =
          some (x.remote m) := by
      intro m hm
      exact (lookup_routeOf hsv).1 (hreached x hx m hm (lit "sv") hsv).1
    obtain ⟨m₀, hm₀⟩ := exists_suitable_of_accepted hx
    refine ⟨(hall m₀ hm₀).1, fun m hm => (hall m hm).2.1, ?_⟩
    -- one name is one key, and it has one remote
    intro m m' hm hm' hname
    have hget := (hall m hm).2.2
    rw [hname, (hall m' hm').2.2] at hget
    have hremote : x.remote m' = x.remote m := Option.some.inj hget
    exact (congrArg (fun remote => remote.method.name) hremote).symm
  · intro hnamed x hx m hm svType hsv
    have hempty : Entered (.empty : Registry T (Func C M O)) (fun _ => False) :=
      ⟨fun _ h => h.elim, fun _ h => h.elim⟩
    have hentered := hempty.registerAll (fun _ h => h.elim) horder hnamed
    have hget := hentered.remotes x (Or.inr hx) m hm
    have hx := hnamed x hx
    have hlookup := (lookup_routeOf hsv).2 ⟨hx.service, hx.legible m hm, hget⟩
    refine ⟨hlookup, ?_⟩
    intro rt ctx req hroute
    exact processRemoteMessage_of_lookup (hroute ▸ hlookup)

/-! ## Two components -/

/-- The source's `strings.ToLower`, on ASCII text. -/
def toLower (s : GoString) : GoString :=
  s.map fun b => if 0x41 ≤ b ∧ b ≤ 0x5A then b + 0x20 else b

/-- A method that takes a context and has no results. -/
def notifyMethod (name : GoString) : Method Unit (Func Unit Unit Unit) where
  name := name
  pkgPath := []
  ins := [⟨(), .ptr, false, false, false⟩, ⟨(), .interface, true, false, false⟩]
  outs := []
  func := fun _ _ _ => .returnsNothing

/-- A component `Room` with methods of some names. -/
def roomOf (receiver : ℕ) (names : List GoString) (hnames : names.Nodup) :
    Component Unit (Func Unit Unit Unit) where
  receiver := receiver
  typeName := lit "Room"
  typeString := lit "*game.Room"
  exported := true
  methods := names.map notifyMethod
  ptrMethods := names.map notifyMethod
  distinct := by
    rw [List.map_map]
    exact (List.map_id names).symm ▸ hnames

/-- `Room` under its own names, and again as `lobby` with its names in lower
case. -/
def twoRooms : List (Registration Unit (Func Unit Unit Unit)) :=
  [⟨roomOf 0 [lit "Join", lit "Leave"] (by decide), [], [lit "Leave", lit "Join"]⟩,
    ⟨roomOf 1 [lit "Join", lit "Leave"] (by decide),
      [.withName (lit "lobby"), .withNameFunc (some toLower)], [lit "join", lit "leave"]⟩]

theorem ordered_twoRooms : ∀ x ∈ twoRooms, x.Ordered := by
  intro x hx
  refine ordered_of_ranges ?_
  simp only [twoRooms, List.mem_cons, List.not_mem_nil, or_false] at hx
  rcases hx with rfl | rfl <;> decide

/-- The condition on a `Room`, as one on the names of its methods. -/
theorem wellNamed_roomOf {receiver : ℕ} {names : List GoString} {hnames : names.Nodup}
    {opts : List Opt} {order : List GoString}
    (hservice : Legible (serviceName (roomOf receiver names hnames) opts))
    (hlegible : ∀ n ∈ names, Legible (registeredName (applyOptions opts).nameFunc (notifyMethod n)))
    (hinj : ∀ n ∈ names, ∀ n' ∈ names,
      registeredName (applyOptions opts).nameFunc (notifyMethod n) =
        registeredName (applyOptions opts).nameFunc (notifyMethod n') → n = n') :
    WellNamed ⟨roomOf receiver names hnames, opts, order⟩ := by
  have hnamed : ∀ m ∈ names.map notifyMethod, ∃ n ∈ names, notifyMethod n = m := by
    intro m hm
    exact List.mem_map.1 hm
  refine ⟨hservice, ?_, ?_⟩
  · rintro m ⟨hm, -⟩
    obtain ⟨n, hn, rfl⟩ := hnamed m hm
    exact hlegible n hn
  · rintro m m' ⟨hm, -⟩ ⟨hm', -⟩ hname
    obtain ⟨n, hn, rfl⟩ := hnamed m hm
    obtain ⟨n', hn', rfl⟩ := hnamed m' hm'
    exact hinj n hn n' hn' hname

instance (s : GoString) : Decidable (Legible s) :=
  inferInstanceAs (Decidable (_ ∧ _))

/-- Both rooms are accepted, and every method of both is reached. -/
theorem registry_faithful_iff_rooms :
    accepted .empty twoRooms = twoRooms ∧
      ∀ x ∈ accepted .empty twoRooms, Reached (registerAll .empty twoRooms).remotes x := by
  have haccepted : accepted .empty twoRooms = twoRooms := rfl
  refine ⟨haccepted, (registry_faithful_iff twoRooms ordered_twoRooms).2 ?_⟩
  rw [haccepted]
  intro x hx
  simp only [twoRooms, List.mem_cons, List.not_mem_nil, or_false] at hx
  rcases hx with rfl | rfl
  · exact wellNamed_roomOf (by decide +kernel) (by decide +kernel) (by decide)
  · exact wellNamed_roomOf (by decide +kernel) (by decide +kernel) (by decide)

/-- **Suitable methods are lost without an error.** Two methods whose names
differ in case only have one name under `strings.ToLower`, and the second
takes the place of the first; and a service whose name has a dot is entered
under a key that no route leads to. -/
theorem registry_loses :
    let folded : Registration Unit (Func Unit Unit Unit) :=
      ⟨roomOf 0 [lit "GetX", lit "Getx"] (by decide), [.withNameFunc (some toLower)], [lit "getx"]⟩
    let dotted : Registration Unit (Func Unit Unit Unit) :=
      ⟨roomOf 0 [lit "Join"] (by decide), [.withName (lit "chat.room")], [lit "Join"]⟩
    (folded.Ordered ∧ accepted .empty [folded] = [folded] ∧
      folded.Suitable (notifyMethod (lit "GetX")) ∧
      lookup (registerAll .empty [folded]).remotes (lit "game.Room.getx") =
        .ok (folded.remote (notifyMethod (lit "Getx"))) ∧
      ¬ Reached (registerAll .empty [folded]).remotes folded) ∧
    dotted.Ordered ∧ accepted .empty [dotted] = [dotted] ∧
      dotted.Suitable (notifyMethod (lit "Join")) ∧
      lookup (registerAll .empty [dotted]).remotes (lit "game.chat.room.Join") =
        .error (routeResponse errBadRequestCode (lit "cannot decode route")
          (lit "game.chat.room.Join")) ∧
      ¬ Reached (registerAll .empty [dotted]).remotes dotted := by
  intro folded dotted
  have hgame : Legible (lit "game") := by decide +kernel
  have hfolded : lookup (registerAll .empty [folded]).remotes (lit "game.Room.getx") =
      .ok (folded.remote (notifyMethod (lit "Getx"))) := by
    show lookup _ (routeOf (lit "game") (lit "Room") (lit "getx")) = _
    exact (lookup_routeOf hgame).2 ⟨by decide +kernel, by decide +kernel, rfl⟩
  have hdotted : lookup (registerAll .empty [dotted]).remotes (lit "game.chat.room.Join") =
      .error (routeResponse errBadRequestCode (lit "cannot decode route")
        (lit "game.chat.room.Join")) := by
    have hdecode : decodeRoute (lit "game.chat.room.Join") = .error errInvalidRoute := by
      decide +kernel
    simp only [lookup, hdecode]
  refine ⟨⟨ordered_of_ranges (by decide), rfl, ⟨by simp [folded, roomOf], by decide⟩, hfolded, ?_⟩,
    ordered_of_ranges (by decide), rfl, ⟨by simp [dotted, roomOf], by decide⟩, hdotted, ?_⟩
  · intro h
    have hfirst := (h (notifyMethod (lit "GetX")) ⟨by simp [folded, roomOf], by decide⟩
      (lit "game") hgame).1
    have hsame := hfolded.symm.trans hfirst
    injection hsame with hremote
    have hname := congrArg (fun remote => remote.method.name) hremote
    revert hname
    decide
  · intro h
    have hfirst := (h (notifyMethod (lit "Join")) ⟨by simp [dotted, roomOf], by decide⟩
      (lit "game") hgame).1
    have hsame := hdotted.symm.trans hfirst
    cases hsame

end Service

end Nrpc
