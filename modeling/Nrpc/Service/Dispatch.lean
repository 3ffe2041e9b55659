import Nrpc.Service.Model.Reflect
import Nrpc.Service.Registry
import Nrpc.Service.Transparent
/-!
# Registered methods that can be dispatched

`isRemoteMethod` asks of a method that its parameters implement interfaces:
the first `context.Context`, the second `proto.Message`. `handleRPC` asks for
more: it takes the element of the second one's type, which an interface or a
struct does not have, and passes the context it has for the first one, which
another context type does not take. And it asks an error that is left for its
text, which a nil `*errors.Error` does not have. So a method can be
registered and not be dispatched (`dispatchable_iff`).
-/

namespace Nrpc

namespace Service

variable {C T M O F : Type} {proto : Proto T M} {dyn : Dynamic C T O} {receiver : ℕ}
  {rt : Runtime C T M O} {remote : Remote T (Func C M O)} {ctx : C} {data : List UInt8}

/-- **`Pcall` panics** in the course of a request. -/
def PcallPanics (rt : Runtime C T M O) (remote : Remote T (Func C M O)) (ctx : C)
    (data : List UInt8) : Prop :=
  ∃ ctx' arg', BeforeLeaves rt remote ctx data ctx' arg' none ∧
    pcall rt.loggers remote ctx' arg' = .panic

/-- **The argument of a request unmarshals**, and the before hooks leave it
and the context. -/
def Untouched (rt : Runtime C T M O) (remote : Remote T (Func C M O)) (ctx : C)
    (data : List UInt8) (arg : Value M O) : Prop :=
  remoteArg rt.proto remote data = .ok arg ∧
    executeBeforePipeline rt.hooks.beforeHandler ctx arg = (ctx, arg, none)

/-- **A remote that can be dispatched**: whatever the payload and the
context, nothing outside `Pcall` panics, and the element is only taken of a
pointer type; and where the argument and the context, which is not nil, are
left as they were, the call of the method passes its checks. -/
structure Dispatchable (rt : Runtime C T M O) (dyn : Dynamic C T O)
    (remote : Remote T (Func C M O)) : Prop where
  returns : ∀ ctx payload, handleRemote rt remote ctx payload = .panic →
    PcallPanics rt remote ctx payload
  elem : remote.hasArgs = true → ∀ ty ∈ remote.type, ty.ptr = true
  callable : ∀ ctx payload arg, dyn.context ctx ≠ none → Untouched rt remote ctx payload arg →
    Callable dyn (callParams rt.proto dyn remote ctx arg) remote.method.ins

/-- What holds of the types of a program and of `proto`: a message is of the
type it was unmarshalled into, and a method's receiver is of the type it is a
method of. -/
structure LawfulTypes (proto : Proto T M) (dyn : Dynamic C T O)
    (methods : List (Method T F)) : Prop where
  typeOf : ∀ t payload m, proto.unmarshal t payload = .ok m → proto.typeOf m = t
  receiver : ∀ m ∈ methods, ∀ ty ∈ m.ins.head?, ty.id = dyn.receiver

/-! ## Registration -/

/-- **The parameters of a method that is registered**: the receiver, a
context, and perhaps a message. -/
theorem ins_of_isRemoteMethod {m : Method T F} (h : isRemoteMethod m = true) :
    (∃ t₀ t₁, m.ins = [t₀, t₁]) ∨ ∃ t₀ t₁ t₂, m.ins = [t₀, t₁, t₂] ∧ t₂.proto = true := by
  unfold isRemoteMethod at h
  split at h
  · rename_i t₀ t₁ hins
    exact Or.inl ⟨t₀, t₁, hins⟩
  · rename_i t₀ t₁ t₂ hins
    simp only [Bool.and_eq_true] at h
    exact Or.inr ⟨t₀, t₁, t₂, hins, h.2.1.2⟩
  · simp at h

/-! ## The argument -/

section Argument

variable {m : Method T (Func C M O)} {payload : List UInt8} {arg : Value M O} {t₀ t₁ t₂ : Ty T}

/-- The argument of a method with a pointer to a message is a message of the
pointer's type. -/
theorem remoteArg_of_three (hins : m.ins = [t₀, t₁, t₂]) (hptr : t₂.ptr = true)
    (hproto : t₂.proto = true) : remoteArg proto (newRemote receiver m) payload = .ok arg ↔
      ∃ msg, proto.unmarshal t₂.id payload = .ok msg ∧ arg = .message msg := by
  have hnew := newElem_of_ptr hptr
  cases hun : proto.unmarshal t₂.id payload with
  | error e => simp [remoteArg, unmarshalRemoteArg, newRemote, Method.arg?, hins, hnew, hproto, hun]
  | ok msg =>
    simp [remoteArg, unmarshalRemoteArg, newRemote, Method.arg?, hins, hnew, hproto, hun, eq_comm]

end Argument

/-! ## Panics -/

/-- The before hooks leave one thing. -/
theorem BeforeLeaves.unique {ctx₁ ctx₂ : C} {arg₁ arg₂ : Value M O} {err₁ err₂ : Option GoError}
    (h₁ : BeforeLeaves rt remote ctx data ctx₁ arg₁ err₁)
    (h₂ : BeforeLeaves rt remote ctx data ctx₂ arg₂ err₂) :
    ctx₁ = ctx₂ ∧ arg₁ = arg₂ ∧ err₁ = err₂ := by
  obtain ⟨a₁, ha₁, hb₁⟩ := h₁
  obtain ⟨a₂, ha₂, hb₂⟩ := h₂
  obtain rfl : a₁ = a₂ := by simpa [ha₁] using ha₂
  simpa [hb₁] using hb₂

theorem textResponse_eq_panic_iff {code : GoString} {err : GoError} :
    textResponse code err = .panic ↔ err = .unreadable := by
  cases err <;> simp [textResponse, GoError.text]

theorem errorLeft_eq_panic_iff {err : GoError} : errorLeft err = .panic ↔ err = .unreadable := by
  cases err <;> simp [errorLeft, textResponse, GoError.text]

/-- **`handleRPC` panics** over the argument, over an error without a text,
or in `Pcall`. -/
theorem handleRemote_eq_panic_iff : handleRemote rt remote ctx data = .panic ↔
    remoteArg rt.proto remote data = .panic ∨ ¬ Readable rt remote ctx data ∨
      PcallPanics rt remote ctx data := by
  constructor
  · intro h
    cases harg : remoteArg rt.proto remote data with
    | panic => exact Or.inl rfl
    | err e => cases (handleRemote_argument harg).symm.trans h
    | ok arg =>
      refine Or.inr ?_
      rcases hb : executeBeforePipeline rt.hooks.beforeHandler ctx arg with ⟨ctx', arg', err⟩
      have hbefore : BeforeLeaves rt remote ctx data ctx' arg' err := ⟨arg, harg, hb⟩
      cases err with
      | some err =>
        obtain rfl := textResponse_eq_panic_iff.1 ((handleRemote_before hbefore).symm.trans h)
        exact Or.inl fun hreadable => hreadable.before ctx' arg' hbefore
      | none =>
        cases hinvoke : invoke rt remote ctx' arg' with
        | panic => exact Or.inr ⟨ctx', arg', hbefore, invoke_eq_panic_iff.1 hinvoke⟩
        | err e => exact absurd hinvoke invoke_ne_err
        | ok left =>
          obtain ⟨v, err⟩ := left
          have hleaves : Leaves rt remote ctx data v err := ⟨ctx', arg', hbefore, hinvoke⟩
          cases err with
          | none => cases (handleRemote_value hleaves).symm.trans h
          | some err =>
            obtain rfl := errorLeft_eq_panic_iff.1 ((handleRemote_final hleaves).symm.trans h)
            exact Or.inl fun hreadable => hreadable.final v hleaves
  · rintro (harg | hunreadable | ⟨ctx', arg', ⟨arg, harg, hbefore⟩, hpanic⟩)
    · simp only [handleRemote, harg]
    · by_contra hreturns
      refine hunreadable ⟨fun ctx' arg' h => hreturns ?_, fun v h => hreturns ?_⟩
      · exact (handleRemote_before h).trans (textResponse_eq_panic_iff.2 rfl)
      · exact (handleRemote_final h).trans (errorLeft_eq_panic_iff.2 rfl)
    · simp only [handleRemote, harg, hbefore, invoke_eq_panic_iff.2 hpanic, Outcome.panic_bind]

/-- A request in which `Pcall` panics has no error to be answered. -/
theorem PcallPanics.readable (h : PcallPanics rt remote ctx data) :
    Readable rt remote ctx data := by
  obtain ⟨ctx₀, arg₀, hbefore₀, hpanic⟩ := h
  constructor
  · intro ctx' arg' hbefore
    cases (hbefore₀.unique hbefore).2.2
  · rintro v ⟨ctx', arg', hbefore, hinvoke⟩
    obtain ⟨rfl, rfl, -⟩ := hbefore₀.unique hbefore
    cases (invoke_eq_panic_iff.2 hpanic).symm.trans hinvoke

/-! ## The call -/

section Call

variable {methods : List (Method T (Func C M O))} {m : Method T (Func C M O)}

/-- **The checks of the call come down to the context**: the receiver and
the argument are of the very types of their parameters. -/
theorem callable_iff {payload : List UInt8} {arg : Value M O} {ctx : C}
    (hlaws : LawfulTypes proto dyn methods) (hm : m ∈ methods)
    (hsuitable : isRemoteMethod m = true) (hptr : ∀ ty ∈ m.arg?, ty.ptr = true)
    (harg : remoteArg proto (newRemote receiver m) payload = .ok arg) :
    Callable dyn (callParams proto dyn (newRemote receiver m) ctx arg) m.ins ↔
      ∀ ty ∈ m.ins[1]?, ∃ d ∈ dyn.context ctx, Assignable dyn d ty := by
  have hself : ∀ t₀ ∈ m.ins.head?, Assignable dyn dyn.receiver t₀ :=
    fun t₀ ht₀ => Or.inl (hlaws.receiver m hm t₀ ht₀).symm
  rcases ins_of_isRemoteMethod hsuitable with ⟨t₀, t₁, hins⟩ | ⟨t₀, t₁, t₂, hins, hproto⟩
  · have ht₀ := hself t₀ (by simp [hins])
    simp [Callable, callParams, newRemote, hins, ht₀]
  · have ht₀ := hself t₀ (by simp [hins])
    have ht₂ := hptr t₂ (by simp [Method.arg?, hins])
    obtain ⟨msg, hmsg, rfl⟩ := (remoteArg_of_three hins ht₂ hproto).1 harg
    have htype : Assignable dyn (proto.typeOf msg) t₂ := Or.inl (hlaws.typeOf _ _ _ hmsg)
    simp [Callable, callParams, newRemote, hins, ht₀, valueType, htype]

/-- The type a remote has is the argument's, so it has one when it has
arguments. -/
theorem elem_iff (hsuitable : isRemoteMethod m = true) :
    ((newRemote receiver m).hasArgs = true → ∀ ty ∈ (newRemote receiver m).type, ty.ptr = true) ↔
      ∀ ty ∈ m.arg?, ty.ptr = true := by
  rcases ins_of_isRemoteMethod hsuitable with ⟨t₀, t₁, hins⟩ | ⟨t₀, t₁, t₂, hins, -⟩
  · simp [newRemote, Method.arg?, hins]
  · simp [newRemote, Method.arg?, hins]

end Call

/-- **What is registered can be dispatched exactly when** the argument, if
there is one, is a pointer, the context parameter takes every context the
hooks leave as it was, and every error that is to be answered has a text. -/
theorem dispatchable_iff (rt : Runtime C T M O) (dyn : Dynamic C T O) (receiver : ℕ)
    (methods : List (Method T (Func C M O))) (nameFunc : Option (GoString → GoString))
    (name : GoString) (remote : Remote T (Func C M O)) (hlaws : LawfulTypes rt.proto dyn methods)
    (hremote : (suitableRemoteMethods receiver methods nameFunc).get? name = some remote) :
    Dispatchable rt dyn remote ↔
      (∀ ty ∈ remote.method.arg?, ty.ptr = true) ∧
        (∀ ctx payload arg, Untouched rt remote ctx payload arg →
          ∀ ty ∈ remote.method.ins[1]?, ∀ d ∈ dyn.context ctx, Assignable dyn d ty) ∧
        ∀ ctx payload, Readable rt remote ctx payload := by
  obtain ⟨m, hm, hsuitable, rfl⟩ := exists_method_of_suitable hremote
  constructor
  · intro h
    have hptr : ∀ ty ∈ m.arg?, ty.ptr = true := (elem_iff hsuitable).1 h.elem
    refine ⟨hptr, fun ctx payload arg hleft ty hty d hd => ?_, fun ctx payload => ?_⟩
    · have hsome : dyn.context ctx = some d := Option.mem_def.1 hd
      have hcall := h.callable ctx payload arg (by simp [hsome]) hleft
      obtain ⟨d', hd', hassign⟩ := (callable_iff hlaws hm hsuitable hptr hleft.1).1 hcall ty hty
      obtain rfl := Option.mem_unique hd hd'
      exact hassign
    · by_contra hunreadable
      have hpanic :=
        h.returns ctx payload (handleRemote_eq_panic_iff.2 (Or.inr (Or.inl hunreadable)))
      exact hunreadable hpanic.readable
  · rintro ⟨hptr, hctx, hreadable⟩
    refine ⟨fun ctx payload h => ?_, (elem_iff hsuitable).2 hptr,
      fun ctx payload arg hsome hleft => ?_⟩
    · rcases handleRemote_eq_panic_iff.1 h with h | h | h
      · exact absurd h (remoteArg_ne_panic hptr)
      · exact absurd (hreadable ctx payload) h
      · exact h
    · obtain ⟨d, hd⟩ := Option.ne_none_iff_exists'.1 hsome
      exact (callable_iff hlaws hm hsuitable hptr hleft.1).2
        fun ty hty => ⟨d, hd, hctx ctx payload arg hleft ty hty d hd⟩

/-! ## Methods of a room -/

/-- The types around a component `Room`. -/
inductive RoomType
  | room
  | context
  | valueCtx
  /-- A context of the program's own. -/
  | tickCtx
  | protoMessage
  | someStruct
  | error
deriving DecidableEq

/-- Requests come with a `*valueCtx`. -/
def roomDynamic : Dynamic Unit RoomType Unit where
  receiver := .room
  context := fun _ => some .valueCtx
  other := fun _ => .room
  underlying := fun _ _ => false
  implements := fun d t => (d = .valueCtx ∨ d = .tickCtx) ∧ t = .context ∨
    d = .someStruct ∧ t = .protoMessage

/-- `proto`, which knows messages of one type. -/
def roomProto : Proto RoomType SomeStruct where
  typeOf := fun _ => .someStruct
  reflects := fun _ => true
  marshal := structProto.marshal
  unmarshal := fun t data =>
    if t = .someStruct then structProto.unmarshal () data
    else .error (lit "proto: cannot parse invalid wire-format data")
  unmarshalResponse := structProto.unmarshalResponse

/-- A method of `*Room` with a context, perhaps an argument and no results. -/
def roomMethod (name : GoString) (ctx : Ty RoomType) (arg : Option (Ty RoomType)) :
    Method RoomType (Func Unit SomeStruct Unit) where
  name := name
  pkgPath := []
  ins := ⟨.room, .ptr, false, false, false⟩ :: ctx :: arg.toList
  outs := []
  func := fun _ _ _ => .returnsNothing

/-- `context.Context`. -/
def contextType : Ty RoomType := ⟨.context, .interface, true, false, false⟩

/-- `func (*Room) Enter(context.Context, *SomeStruct)`. -/
def enter : Method RoomType (Func Unit SomeStruct Unit) :=
  roomMethod (lit "Enter") contextType (some ⟨.someStruct, .ptr, false, true, false⟩)

/-- `func (*Room) Relay(context.Context, proto.Message)`. -/
def relay : Method RoomType (Func Unit SomeStruct Unit) :=
  roomMethod (lit "Relay") contextType (some ⟨.protoMessage, .interface, false, true, false⟩)

/-- `func (*Room) Tick(*tickCtx)`. -/
def tick : Method RoomType (Func Unit SomeStruct Unit) :=
  roomMethod (lit "Tick") ⟨.tickCtx, .ptr, true, false, false⟩ none

/-- `func (*Room) Reject(context.Context, *SomeStruct) (*SomeStruct, error)`,
which returns an `*errors.Error` that is nil. -/
def reject : Method RoomType (Func Unit SomeStruct Unit) :=
  { enter with
    name := lit "Reject"
    outs := [⟨.someStruct, .ptr, false, true, false⟩, ⟨.error, .interface, false, false, true⟩]
    func := fun _ _ _ => .returns none (some .unreadable) }

/-- A room without hooks. -/
def roomRuntime : Runtime Unit RoomType SomeStruct Unit := ⟨roomProto, defaultLoggers, ⟨[], []⟩⟩

/-- The types of the room's methods are as those of a program are. -/
theorem lawfulTypes_room : LawfulTypes roomProto roomDynamic [enter, relay, tick, reject] := by
  refine ⟨?_, ?_⟩
  · intro t payload m h
    simp only [roomProto] at h
    split at h
    · rename_i ht
      exact ht.symm
    · cases h
  · intro m hm ty hty
    simp only [List.mem_cons, List.not_mem_nil, or_false] at hm
    rcases hm with rfl | rfl | rfl | rfl <;> · obtain rfl := Option.mem_some.1 hty; rfl

/-- `Enter` is registered and can be dispatched. -/
theorem dispatchable_iff_enter :
    (suitableRemoteMethods 0 [enter, relay, tick, reject] none).get? (lit "Enter") =
        some (newRemote 0 enter) ∧
      Dispatchable roomRuntime roomDynamic (newRemote 0 enter) := by
  have hremote : (suitableRemoteMethods 0 [enter, relay, tick, reject] none).get? (lit "Enter") =
      some (newRemote 0 enter) := rfl
  refine ⟨hremote, (dispatchable_iff roomRuntime roomDynamic 0 [enter, relay, tick, reject] none
    (lit "Enter") (newRemote 0 enter) lawfulTypes_room hremote).2 ⟨?_, ?_, fun _ _ => ⟨?_, ?_⟩⟩⟩
  · intro ty hty
    obtain rfl := Option.mem_some.1 hty
    rfl
  · intro ctx payload arg _ ty hty d hd
    obtain rfl := Option.mem_some.1 hty
    obtain rfl := Option.mem_some.1 hd
    exact Or.inr (Or.inr ⟨rfl, rfl⟩)
  · rintro ctx' arg' ⟨arg, -, hbefore⟩
    cases hbefore
  · rintro v ⟨ctx', arg', -, hinvoke⟩
    cases hinvoke

/-- **What is registered cannot always be dispatched.** `Relay` takes any
message: every request panics over the element of an interface, outside
`Pcall`. `Tick` takes a context of its own, and the call is made with
another. `Reject` returns an error that is a nil pointer: it is asked for its
text, outside `Pcall`. -/
theorem registered_not_dispatchable :
    let registered := suitableRemoteMethods 0 [enter, relay, tick, reject] none
    (isRemoteMethod relay = true ∧ registered.get? (lit "Relay") = some (newRemote 0 relay) ∧
      handleRemote roomRuntime (newRemote 0 relay) () hello.wire = .panic ∧
      ¬ Dispatchable roomRuntime roomDynamic (newRemote 0 relay)) ∧
    (isRemoteMethod tick = true ∧ registered.get? (lit "Tick") = some (newRemote 0 tick) ∧
      ¬ Dispatchable roomRuntime roomDynamic (newRemote 0 tick)) ∧
    isRemoteMethod reject = true ∧ registered.get? (lit "Reject") = some (newRemote 0 reject) ∧
      handleRemote roomRuntime (newRemote 0 reject) () hello.wire = .panic ∧
      ¬ Dispatchable roomRuntime roomDynamic (newRemote 0 reject) := by
  intro registered
  refine ⟨⟨by decide, rfl, rfl, fun h => ?_⟩, ⟨by decide, rfl, fun h => ?_⟩, by decide, rfl, rfl,
    fun h => ?_⟩
  · obtain ⟨ctx', arg', ⟨arg, harg, -⟩, -⟩ := h.returns () hello.wire rfl
    cases harg
  · have hcall := h.callable () [] .nil (by simp [roomDynamic]) ⟨rfl, rfl⟩
    simp [Callable, callParams, newRemote, tick, roomMethod, Assignable, roomDynamic] at hcall
  · obtain ⟨ctx', arg', -, hpanic⟩ := h.returns () hello.wire rfl
    cases hpanic

end Service

end Nrpc
