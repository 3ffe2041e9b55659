import Nrpc.Server.Answers
import Nrpc.Service.Model.Remote
/-!
# A remote call is its method between its hooks

What a caller of `RPC` sees is what the stages of the remote leave: the
argument, the before hooks, and the method between them and the after
hooks. Each layer in between passes it on. `handleRemote` makes a response
of the first stage that fails or of the value left, `marshalResponse` and
`callResult` carry the response over, and `replyOf` unmarshals the value
(`rpc_transparent`).

Two layers have an answer of their own, for what cannot be put on the wire:
`valueLeft` answers the error of a message that does not marshal, and
`marshalResponse` replaces a response that does not by the error saying so.
And a panic of the method that cannot be logged gets past both
(`rpc_replaces`).
-/

namespace Nrpc

namespace Service

open Server

variable {C T M O : Type} {env : Env} {rt : Runtime C T M O} {remote : Remote T (Func C M O)}
  {remotes : GoMap GoString (Remote T (Func C M O))} {ctx : C} {data : List UInt8} {reply : T}
  {resp : Response}

/-! ## What a caller is to see -/

/-- The code of an error left behind the after hooks. -/
def GoError.code : GoError → GoString
  | .nrpc e => if e.code = [] then errUnknownCode else e.code
  | .other _ | .unreadable => errUnknownCode

/-- **The stages of a remote, up to the end of the before hooks.** -/
def BeforeLeaves (rt : Runtime C T M O) (remote : Remote T (Func C M O)) (ctx : C)
    (data : List UInt8) (ctx' : C) (arg' : Value M O) (err : Option GoError) : Prop :=
  ∃ arg, remoteArg rt.proto remote data = .ok arg ∧
    executeBeforePipeline rt.hooks.beforeHandler ctx arg = (ctx', arg', err)

/-- **All stages of a remote**: what the after hooks leave. -/
def Leaves (rt : Runtime C T M O) (remote : Remote T (Func C M O)) (ctx : C) (data : List UInt8)
    (v : Value M O) (err : Option GoError) : Prop :=
  ∃ ctx' arg', BeforeLeaves rt remote ctx data ctx' arg' none ∧
    invoke rt remote ctx' arg' = .ok (v, err)

/-- **Every error that is to be answered has a text.** -/
structure Readable (rt : Runtime C T M O) (remote : Remote T (Func C M O)) (ctx : C)
    (data : List UInt8) : Prop where
  before : ∀ ctx' arg', ¬ BeforeLeaves rt remote ctx data ctx' arg' (some .unreadable)
  final : ∀ v, ¬ Leaves rt remote ctx data v (some .unreadable)

/-- The message a value stands for: nil for the empty one. -/
def StandsFor (empty m : M) : Value M O → Prop
  | .nil => m = empty
  | .message m' => m = m'
  | .other _ => False

/-- **What a call returns is what the stages of its remote leave.** -/
structure Transparent (rt : Runtime C T M O) (remote : Remote T (Func C M O)) (ctx : C)
    (data : List UInt8) (empty : M) (result : Outcome GoError M) : Prop where
  returns_iff : ∀ m, result = .ok m ↔
    ∃ v, Leaves rt remote ctx data v none ∧ StandsFor empty m v
  otherwise : (∃ m, result = .ok m) ∨ ∃ e, result = .err (.nrpc e)
  argument : ∀ text, remoteArg rt.proto remote data = .err text →
    ∃ e, result = .err (.nrpc e) ∧ e.msg = text ∧ e.code = errBadRequestCode
  before : ∀ ctx' arg' err, BeforeLeaves rt remote ctx data ctx' arg' (some err) →
    ∃ e, result = .err (.nrpc e) ∧ err.text = some e.msg ∧ e.code = errInternalCode
  final : ∀ v err, Leaves rt remote ctx data v (some err) →
    ∃ e, result = .err (.nrpc e) ∧ err.text = some e.msg ∧ e.code = err.code

/-! ## The stages -/

/-- Behind a pointer type, `reflect.New` of its element is of the type
itself. -/
theorem newElem_of_ptr {ty : Ty T} (h : ty.ptr = true) : ty.newElem = some (ty.id, ty.proto) := by
  unfold Ty.ptr at h
  unfold Ty.newElem
  split at h
  · rename_i hkind
    rw [hkind]
  · cases h

/-- The argument of a remote method with a pointer for its argument is
unmarshalled or refused. -/
theorem remoteArg_ne_panic {receiver : ℕ} {m : Method T (Func C M O)}
    (hptr : ∀ ty ∈ m.arg?, ty.ptr = true) :
    remoteArg rt.proto (newRemote receiver m) data ≠ .panic := by
  unfold remoteArg unmarshalRemoteArg
  split
  · cases harg : m.arg? with
    | none => simp [newRemote, harg]
    | some ty =>
      have hty : ty.newElem = some (ty.id, ty.proto) := newElem_of_ptr (hptr ty harg)
      simp only [newRemote, harg, hty]
      split
      · simp
      · split <;> simp
  · simp

/-- **`Pcall` panics** over a panic of the method that is not logged. -/
theorem pcall_eq_panic_iff {loggers : Loggers C M O} {arg : Value M O} :
    pcall loggers remote ctx arg = .panic ↔
      (∃ rec, remote.method.func remote.receiver ctx arg = .panics rec) ∧
        ¬ loggers.Logs remote ctx arg := by
  unfold pcall
  cases remote.method.func remote.receiver ctx arg with
  | returnsNothing => simp
  | returns reply err => cases err <;> cases reply <;> simp
  | panics rec => by_cases h : loggers.Logs remote ctx arg <;> simp [h]

/-- What `Pcall` returns is a value and an error of the method's. -/
theorem pcall_ne_err {loggers : Loggers C M O} {arg : Value M O} {e : GoString} :
    pcall loggers remote ctx arg ≠ .err e := by
  unfold pcall
  cases remote.method.func remote.receiver ctx arg with
  | returnsNothing => simp
  | returns reply err => cases err <;> cases reply <;> simp
  | panics rec => by_cases h : loggers.Logs remote ctx arg <;> simp [h]

/-- The method between the hooks panics where `Pcall` does. -/
theorem invoke_eq_panic_iff {arg : Value M O} :
    invoke rt remote ctx arg = .panic ↔ pcall rt.loggers remote ctx arg = .panic := by
  unfold invoke
  rw [Outcome.bind_eq_panic_iff]
  simp

/-- Behind `Pcall` nothing is an error of Go's own kind: the hooks return a
value and an error of theirs. -/
theorem invoke_ne_err {arg : Value M O} {e : GoString} : invoke rt remote ctx arg ≠ .err e := by
  intro h
  unfold invoke at h
  cases hcall : pcall rt.loggers remote ctx arg with
  | ok p => rw [hcall] at h; cases h
  | err e' => exact pcall_ne_err hcall
  | panic => rw [hcall] at h; cases h

/-! ## The response on its way -/

/-- A response that marshals comes out of the wire as it went in. -/
theorem unmarshalResponse_marshalResponse
    (hwire : ∀ resp p, env.marshal resp = .ok p → rt.proto.unmarshalResponse p = .ok resp)
    (hresp : ∃ p, env.marshal resp = .ok p) :
    rt.proto.unmarshalResponse (marshalResponse env resp).1 = .ok resp := by
  obtain ⟨p, hp⟩ := hresp
  have hbytes : (marshalResponse env resp).1 = p := by simp [marshalResponse, hp]
  rw [hbytes]
  exact hwire resp p hp

/-- **A call that reaches its remote**: its argument marshals, its route
leads to the remote, and the response arrives as it was made. -/
structure Reaches (env : Env) (rt : Runtime C T M O)
    (remotes : GoMap GoString (Remote T (Func C M O))) (remote : Remote T (Func C M O)) (ctx : C)
    (route : Route) (data : List UInt8) (arg : Option M) : Prop where
  marshals : argData rt.proto arg = .ok data
  leads : lookup remotes route.string = .ok remote
  arrives : ∀ resp, handleRemote rt remote ctx data = .ok resp →
    rt.proto.unmarshalResponse (marshalResponse env resp).1 = .ok resp

section Delivery

variable {route : Route} {metadata : List UInt8} {arg : Option M} {e : Server.Error}

/-- What `RPC` makes of the response of the remote it reaches. -/
theorem rpc_eq (h : Reaches env rt remotes remote ctx route data arg)
    (hhandle : handleRemote rt remote ctx data = .ok resp) :
    rpc env rt remotes ctx route metadata reply arg =
      .ofExcept (callResult rt.proto (marshalResponse env resp).1 >>= replyOf rt.proto reply) := by
  have hprocess : processRemoteMessage rt remotes ctx (rpcRequest route metadata data) =
      .ok resp :=
    (processRemoteMessage_of_lookup h.leads).trans hhandle
  simp only [rpc, h.marshals, hprocess]

/-- **An error in the response is the error of the call**, with a code in
place of an empty one. -/
theorem rpc_error (h : Reaches env rt remotes remote ctx route data arg)
    (hhandle : handleRemote rt remote ctx data = .ok resp) (he : resp.error = some e) :
    rpc env rt remotes ctx route metadata reply arg =
      .err (.nrpc { e with code := if e.code = [] then errUnknownCode else e.code }) := by
  rw [rpc_eq h hhandle]
  simp only [callResult, h.arrives resp hhandle, he]
  rfl

/-- **The data of a response without error is the reply.** -/
theorem rpc_value {m : M} (h : Reaches env rt remotes remote ctx route data arg)
    (hhandle : handleRemote rt remote ctx data = .ok resp) (he : resp.error = none)
    (hm : rt.proto.unmarshal reply resp.data = .ok m) :
    rpc env rt remotes ctx route metadata reply arg = .ok m := by
  rw [rpc_eq h hhandle]
  have hreply : replyOf rt.proto reply resp = .ok m := by simp [replyOf, he, hm]
  simp only [callResult, h.arrives resp hhandle, he]
  show Outcome.ofExcept (replyOf rt.proto reply resp) = .ok m
  rw [hreply]
  rfl

end Delivery

/-! ## The response of each stage -/

theorem handleRemote_argument {text : GoString}
    (h : remoteArg rt.proto remote data = .err text) :
    handleRemote rt remote ctx data = .ok (errorResponse errBadRequestCode text) := by
  simp only [handleRemote, h]

theorem handleRemote_before {ctx' : C} {arg' : Value M O} {err : GoError}
    (h : BeforeLeaves rt remote ctx data ctx' arg' (some err)) :
    handleRemote rt remote ctx data = textResponse errInternalCode err := by
  obtain ⟨arg, harg, hbefore⟩ := h
  simp only [handleRemote, harg, hbefore]

theorem handleRemote_final {v : Value M O} {err : GoError}
    (h : Leaves rt remote ctx data v (some err)) :
    handleRemote rt remote ctx data = errorLeft err := by
  obtain ⟨ctx', arg', ⟨arg, harg, hbefore⟩, hinvoke⟩ := h
  simp only [handleRemote, harg, hbefore, hinvoke]
  rfl

theorem handleRemote_value {v : Value M O} (h : Leaves rt remote ctx data v none) :
    handleRemote rt remote ctx data = .ok (valueLeft rt.proto v) := by
  obtain ⟨ctx', arg', ⟨arg, harg, hbefore⟩, hinvoke⟩ := h
  simp only [handleRemote, harg, hbefore, hinvoke]
  rfl

/-- Only an error without a text has no response of its text. -/
theorem textResponse_of_readable {err : GoError} (h : err ≠ .unreadable) (code : GoString) :
    ∃ text, err.text = some text ∧ textResponse code err = .ok (errorResponse code text) := by
  cases err with
  | nrpc e => exact ⟨e.msg, rfl, rfl⟩
  | other text => exact ⟨text, rfl, rfl⟩
  | unreadable => exact absurd rfl h

/-- The response to an error that has a text: the text, and the code the
caller puts in for an empty one. -/
theorem errorLeft_of_readable {err : GoError} (h : err ≠ .unreadable) :
    ∃ e, errorLeft err = .ok ⟨[], some e⟩ ∧ err.text = some e.msg ∧
      (if e.code = [] then errUnknownCode else e.code) = err.code := by
  cases err with
  | nrpc e => exact ⟨e, rfl, rfl, rfl⟩
  | other text => exact ⟨_, rfl, rfl, rfl⟩
  | unreadable => exact absurd rfl h

/-- Every response to an error has one. -/
theorem error_of_textResponse {code : GoString} {err : GoError}
    (h : textResponse code err = .ok resp) : resp.error ≠ none := by
  cases err <;> cases h <;> simp [errorResponse]

theorem error_of_errorLeft {err : GoError} (h : errorLeft err = .ok resp) :
    resp.error ≠ none := by
  cases err <;> cases h <;> simp [errorResponse]

/-- **Some stage decides**: the argument is refused, a before hook fails,
or the after hooks leave something. -/
theorem exists_stage (hpanic : remoteArg rt.proto remote data ≠ .panic)
    (hlogged : ∀ ctx' arg', BeforeLeaves rt remote ctx data ctx' arg' none →
      (∃ rec, remote.method.func remote.receiver ctx' arg' = .panics rec) →
      rt.loggers.Logs remote ctx' arg') :
    (∃ text, remoteArg rt.proto remote data = .err text) ∨
      (∃ ctx' arg' err, BeforeLeaves rt remote ctx data ctx' arg' (some err)) ∨
      ∃ v err, Leaves rt remote ctx data v err := by
  cases harg : remoteArg rt.proto remote data with
  | panic => exact absurd harg hpanic
  | err text => exact Or.inl ⟨text, rfl⟩
  | ok arg =>
    refine Or.inr ?_
    rcases hb : executeBeforePipeline rt.hooks.beforeHandler ctx arg with ⟨ctx', arg', err⟩
    cases err with
    | some err => exact Or.inl ⟨ctx', arg', err, arg, harg, hb⟩
    | none =>
      have hbefore : BeforeLeaves rt remote ctx data ctx' arg' none := ⟨arg, harg, hb⟩
      cases hinvoke : invoke rt remote ctx' arg' with
      | panic =>
        obtain ⟨hpanics, hlost⟩ := pcall_eq_panic_iff.1 (invoke_eq_panic_iff.1 hinvoke)
        exact absurd (hlogged ctx' arg' hbefore hpanics) hlost
      | err e => exact absurd hinvoke invoke_ne_err
      | ok left => exact Or.inr ⟨left.1, left.2, ctx', arg', hbefore, hinvoke⟩

/-- A value the after hooks may leave: nil, or a message of the reply's
type that marshals. -/
def Sendable (proto : Proto T M) (reply : T) : Value M O → Prop
  | .nil => True
  | .message m =>
    proto.typeOf m = reply ∧ proto.reflects m = true ∧ ∃ b, proto.marshal m = .ok b
  | .other _ => False

/-- The response to a sendable value has no error, and its data is the
message the value stands for. -/
theorem valueLeft_of_sendable {v : Value M O} {empty : M} (hv : Sendable rt.proto reply v)
    (hround : ∀ m b, rt.proto.typeOf m = reply → rt.proto.marshal m = .ok b →
      rt.proto.unmarshal reply b = .ok m)
    (hempty : rt.proto.unmarshal reply [] = .ok empty) :
    (valueLeft rt.proto v).error = none ∧
      ∃ m, StandsFor empty m v ∧ rt.proto.unmarshal reply (valueLeft rt.proto v).data = .ok m := by
  cases v with
  | nil => exact ⟨rfl, empty, rfl, hempty⟩
  | message m =>
    obtain ⟨htype, hreflects, b, hb⟩ := hv
    have hleft : valueLeft (O := O) rt.proto (.message m) = ⟨b, none⟩ := by
      simp [valueLeft, hreflects, hb]
    rw [hleft]
    exact ⟨rfl, m, rfl, hround m b htype hb⟩
  | other o => exact absurd hv id

theorem StandsFor.unique {v : Value M O} {empty m m' : M} (h : StandsFor empty m v)
    (h' : StandsFor empty m' v) : m = m' := by
  cases v with
  | nil => exact Eq.trans h (Eq.symm h')
  | message => exact Eq.trans h (Eq.symm h')
  | other => exact absurd h id

/-! ## The whole call -/

section Stages

variable (metadata : List UInt8) (reply : T)
variable {route : Route} {arg : Option M} {empty : M} {v : Value M O} {err : GoError}

theorem rpc_argument {text : GoString} (h : Reaches env rt remotes remote ctx route data arg)
    (hfails : remoteArg rt.proto remote data = .err text) :
    ∃ e, rpc env rt remotes ctx route metadata reply arg = .err (.nrpc e) ∧ e.msg = text ∧
      e.code = errBadRequestCode :=
  ⟨_, rpc_error h (handleRemote_argument hfails) rfl, rfl, rfl⟩

theorem rpc_before {ctx' : C} {arg' : Value M O}
    (h : Reaches env rt remotes remote ctx route data arg)
    (hreadable : Readable rt remote ctx data)
    (hfails : BeforeLeaves rt remote ctx data ctx' arg' (some err)) :
    ∃ e, rpc env rt remotes ctx route metadata reply arg = .err (.nrpc e) ∧
      err.text = some e.msg ∧ e.code = errInternalCode := by
  have hne : err ≠ .unreadable := by
    rintro rfl
    exact hreadable.before ctx' arg' hfails
  obtain ⟨text, htext, hresp⟩ := textResponse_of_readable hne errInternalCode
  exact ⟨_, rpc_error h ((handleRemote_before hfails).trans hresp) rfl, htext, rfl⟩

theorem rpc_final (h : Reaches env rt remotes remote ctx route data arg)
    (hreadable : Readable rt remote ctx data)
    (hleaves : Leaves rt remote ctx data v (some err)) :
    ∃ e, rpc env rt remotes ctx route metadata reply arg = .err (.nrpc e) ∧
      err.text = some e.msg ∧ e.code = err.code := by
  have hne : err ≠ .unreadable := by
    rintro rfl
    exact hreadable.final v hleaves
  obtain ⟨e, hresp, htext, hcode⟩ := errorLeft_of_readable hne
  exact ⟨_, rpc_error h ((handleRemote_final hleaves).trans hresp) rfl, htext, hcode⟩

theorem rpc_reply (h : Reaches env rt remotes remote ctx route data arg)
    (hround : ∀ m b, rt.proto.typeOf m = reply → rt.proto.marshal m = .ok b →
      rt.proto.unmarshal reply b = .ok m)
    (hempty : rt.proto.unmarshal reply [] = .ok empty)
    (hleaves : Leaves rt remote ctx data v none) (hv : Sendable rt.proto reply v) :
    ∃ r, StandsFor empty r v ∧ rpc env rt remotes ctx route metadata reply arg = .ok r := by
  obtain ⟨hnone, r, hr, hunmarshal⟩ := valueLeft_of_sendable hv hround hempty
  exact ⟨r, hr, rpc_value h (handleRemote_value hleaves) hnone hunmarshal⟩

end Stages

/-- **A remote call is transparent**, for a method with a pointer for its
argument, when what its stages leave can be put on the wire, their errors
have a text, and a panic of the method is logged. -/
theorem rpc_transparent (env : Env) (rt : Runtime C T M O)
    (remotes : GoMap GoString (Remote T (Func C M O))) (receiver : ℕ)
    (m : Method T (Func C M O)) (ctx : C) (route : Route) (metadata data : List UInt8) (reply : T)
    (empty : M) (arg : Option M) (hptr : ∀ ty ∈ m.arg?, ty.ptr = true)
    -- the route leads to the method
    (hlookup : lookup remotes route.string = .ok (newRemote receiver m))
    (hdata : argData rt.proto arg = .ok data)
    -- what `proto` does
    (hwire : ∀ resp p, env.marshal resp = .ok p → rt.proto.unmarshalResponse p = .ok resp)
    (hround : ∀ m b, rt.proto.typeOf m = reply → rt.proto.marshal m = .ok b →
      rt.proto.unmarshal reply b = .ok m)
    (hempty : rt.proto.unmarshal reply [] = .ok empty)
    -- what the stages leave
    (hleft : ∀ v, Leaves rt (newRemote receiver m) ctx data v none → Sendable rt.proto reply v)
    (hresp : ∀ resp, handleRemote rt (newRemote receiver m) ctx data = .ok resp →
      ∃ p, env.marshal resp = .ok p)
    (hreadable : Readable rt (newRemote receiver m) ctx data)
    (hlogged : ∀ ctx' arg', BeforeLeaves rt (newRemote receiver m) ctx data ctx' arg' none →
      (∃ rec, m.func receiver ctx' arg' = .panics rec) →
      rt.loggers.Logs (newRemote receiver m) ctx' arg') :
    Transparent rt (newRemote receiver m) ctx data empty
      (rpc env rt remotes ctx route metadata reply arg) := by
  have hreaches : Reaches env rt remotes (newRemote receiver m) ctx route data arg :=
    ⟨hdata, hlookup, fun resp h => unmarshalResponse_marshalResponse hwire (hresp resp h)⟩
  have hvalue : ∀ v, Leaves rt (newRemote receiver m) ctx data v none →
      ∃ r, StandsFor empty r v ∧ rpc env rt remotes ctx route metadata reply arg = .ok r :=
    fun v h => rpc_reply metadata reply hreaches hround hempty h (hleft v h)
  -- whichever stage decides, the call ends in a reply or in an error of its own kind
  have hends : (∃ r v, Leaves rt (newRemote receiver m) ctx data v none ∧ StandsFor empty r v ∧
        rpc env rt remotes ctx route metadata reply arg = .ok r) ∨
      ∃ e, rpc env rt remotes ctx route metadata reply arg = .err (.nrpc e) := by
    rcases exists_stage (remoteArg_ne_panic hptr) hlogged with
      ⟨text, h⟩ | ⟨ctx', arg', err, h⟩ | ⟨v, err, h⟩
    · obtain ⟨e, he, -⟩ := rpc_argument metadata reply hreaches h
      exact Or.inr ⟨e, he⟩
    · obtain ⟨e, he, -⟩ := rpc_before metadata reply hreaches hreadable h
      exact Or.inr ⟨e, he⟩
    · cases err with
      | some err =>
        obtain ⟨e, he, -⟩ := rpc_final metadata reply hreaches hreadable h
        exact Or.inr ⟨e, he⟩
      | none =>
        obtain ⟨r, hr, he⟩ := hvalue v h
        exact Or.inl ⟨r, v, h, hr, he⟩
  refine ⟨?_, ?_, fun _ h => rpc_argument metadata reply hreaches h,
    fun _ _ _ h => rpc_before metadata reply hreaches hreadable h,
    fun _ _ h => rpc_final metadata reply hreaches hreadable h⟩
  · intro r
    constructor
    · intro hok
      rcases hends with ⟨r', v, h, hr', he⟩ | ⟨e, he⟩
      · rw [he] at hok
        obtain rfl : r' = r := by injection hok
        exact ⟨v, h, hr'⟩
      · rw [he] at hok
        cases hok
    · rintro ⟨v, h, hr⟩
      obtain ⟨r', hr', he⟩ := hvalue v h
      rw [he, hr.unique hr']
  · rcases hends with ⟨r, -, -, -, he⟩ | ⟨e, he⟩
    · exact Or.inl ⟨r, he⟩
    · exact Or.inr ⟨e, he⟩

/-! ## Three calls -/

/-- The message of the source's tests, with a small `A`. -/
structure SomeStruct where
  a : ℕ
  b : GoString
deriving DecidableEq

/-- A small message on the wire. -/
def SomeStruct.wire (m : SomeStruct) : List UInt8 :=
  (if m.a = 0 then [] else [0x08, UInt8.ofNat m.a]) ++ shortField 0x12 m.b

def hello : SomeStruct := ⟨1, lit "hello"⟩

/-- The message `hello` is answered with. -/
def welcome : SomeStruct := ⟨2, lit "welcome"⟩

/-- A message whose text is not valid. -/
def garbled : SomeStruct := ⟨3, [0xff]⟩

def errInvalidUTF8 : GoString := lit "string field contains invalid UTF-8"

/-- The response that says that something does not marshal. -/
def invalidResponse : Response := errorResponse errUnknownCode errInvalidUTF8

/-- A response to be carried over. -/
def Response.wire (resp : Response) : List UInt8 :=
  shortField 0x0a resp.data ++ (resp.error.map fun e =>
    shortField 0x12 (shortField 0x0a e.code ++ shortField 0x12 e.msg)).getD []

/-- The server's side, for the responses of the calls below. -/
def structServer : Env :=
  { roomServer with
    marshal := fun resp =>
      if resp = ⟨welcome.wire, none⟩ ∨ resp = invalidResponse then .ok (Response.wire resp)
      else .error errInvalidUTF8 }

/-- The library, for the messages of the calls below. -/
def structProto : Proto Unit SomeStruct where
  typeOf := fun _ => ()
  reflects := fun _ => true
  marshal := fun m =>
    if m = hello ∨ m = welcome then .ok m.wire else .error errInvalidUTF8
  unmarshal := fun _ data =>
    if data = [] then .ok ⟨0, []⟩
    else if data = hello.wire then .ok hello
    else if data = welcome.wire then .ok welcome
    else .error (lit "proto: cannot parse invalid wire-format data")
  unmarshalResponse := fun data =>
    if data = Response.wire ⟨welcome.wire, none⟩ then .ok ⟨welcome.wire, none⟩
    else if data = Response.wire invalidResponse then .ok invalidResponse
    else .error (lit "proto: cannot parse invalid wire-format data")

/-- No parameter has a logger, and `logger.Log` returns. -/
def defaultLoggers : Loggers C M O := ⟨fun _ => .nil, fun _ => .nil, fun _ => .nil, true⟩

/-- The context has something else than a logger under the logger's key. -/
def strangeContext : Loggers Unit SomeStruct Unit :=
  ⟨fun _ => .nil, fun _ => .other, fun _ => .nil, true⟩

/-- The context has a logger, and the receiver is a context itself: it
embeds one that is nil. -/
def embeddedContext : Loggers Unit SomeStruct Unit :=
  ⟨fun _ => .other, fun _ => .logger true, fun _ => .nil, true⟩

/-- No hooks, and no logger in a parameter. -/
def structRuntime : Runtime Unit Unit SomeStruct Unit := ⟨structProto, defaultLoggers, [], []⟩

/-- A method with an argument that returns what `func` makes of it. -/
def structMethod (name : GoString) (reply : SomeStruct → Behaviour SomeStruct) :
    Method Unit (Func Unit SomeStruct Unit) where
  name := name
  pkgPath := []
  ins := [⟨(), .ptr, false, false, false⟩, ⟨(), .interface, true, false, false⟩,
    ⟨(), .ptr, false, true, false⟩]
  outs := [⟨(), .ptr, false, true, false⟩, ⟨(), .interface, false, false, true⟩]
  func := fun _ _ arg =>
    match arg with
    | .message m => reply m
    | _ => .panics (.string (lit "reflect: Call using zero Value argument"))

/-- A service `room` with the one method. -/
def structRemotes (m : Method Unit (Func Unit SomeStruct Unit)) :
    GoMap GoString (Remote Unit (Func Unit SomeStruct Unit)) :=
  GoMap.empty.set (lit "room." ++ m.name) (newRemote 0 m)

/-- `join`, answered with a message. -/
def joinMethod : Method Unit (Func Unit SomeStruct Unit) :=
  structMethod (lit "join") fun _ => .returns (some welcome) none

theorem lookup_structRemotes (name : GoString) (reply : SomeStruct → Behaviour SomeStruct)
    (hroute : decodeRoute (Route.string ⟨lit "game", lit "room", name⟩) =
      .ok ⟨lit "game", lit "room", name⟩) :
    lookup (structRemotes (structMethod name reply))
      (Route.string ⟨lit "game", lit "room", name⟩) =
        .ok (newRemote 0 (structMethod name reply)) := by
  have hget : (structRemotes (structMethod name reply)).get?
      (Route.short ⟨lit "game", lit "room", name⟩) = some (newRemote 0 (structMethod name reply)) :=
    GoMap.get?_set_self _ _ _
  simp only [lookup, hroute, hget]

/-- What the server marshals, the client reads. -/
theorem structServer_wire (resp : Response) (p : List UInt8)
    (h : structServer.marshal resp = .ok p) : structProto.unmarshalResponse p = .ok resp := by
  simp only [structServer] at h
  split at h
  · rename_i hresp
    obtain rfl : Response.wire resp = p := by injection h
    rcases hresp with rfl | rfl <;> decide +kernel
  · cases h

/-- What `proto` marshals, it unmarshals. -/
theorem structProto_round (m : SomeStruct) (b : List UInt8)
    (h : structProto.marshal m = .ok b) : structProto.unmarshal () b = .ok m := by
  simp only [structProto] at h
  split at h
  · rename_i hm
    obtain rfl : m.wire = b := by injection h
    rcases hm with rfl | rfl <;> decide +kernel
  · cases h

/-- The call of `room.join` returns the answer. -/
theorem rpc_transparent_join :
    let result := rpc structServer structRuntime (structRemotes joinMethod) ()
      ⟨lit "game", lit "room", lit "join"⟩ [] () (some hello)
    isRemoteMethod joinMethod = true ∧ result = .ok welcome ∧
      Transparent structRuntime (newRemote 0 joinMethod) () hello.wire ⟨0, []⟩ result := by
  intro result
  have hlookup : lookup (structRemotes joinMethod)
      (Route.string ⟨lit "game", lit "room", lit "join"⟩) = .ok (newRemote 0 joinMethod) :=
    lookup_structRemotes _ _ (by decide +kernel)
  have hbefore : ∀ ctx' arg' err,
      BeforeLeaves structRuntime (newRemote 0 joinMethod) () hello.wire ctx' arg' err →
      arg' = .message hello := by
    rintro ctx' arg' err ⟨arg, harg, hrest⟩
    obtain rfl : Value.message hello = arg := by injection harg
    exact (congrArg (fun p => p.2.1) hrest).symm
  refine ⟨by decide, by decide +kernel, ?_⟩
  have hleaves : ∀ v err,
      Leaves structRuntime (newRemote 0 joinMethod) () hello.wire v err →
      v = .message welcome ∧ err = none := by
    rintro v err ⟨ctx', arg', hleaves, hinvoke⟩
    rw [hbefore ctx' arg' none hleaves] at hinvoke
    injection hinvoke with hpair
    exact ⟨(congrArg Prod.fst hpair).symm, (congrArg Prod.snd hpair).symm⟩
  refine rpc_transparent structServer structRuntime (structRemotes joinMethod) 0 joinMethod ()
    ⟨lit "game", lit "room", lit "join"⟩ [] hello.wire () ⟨0, []⟩ (some hello) ?_ hlookup rfl
    structServer_wire (fun m b _ => structProto_round m b) rfl ?_ ?_ ⟨?_, ?_⟩ ?_
  · intro ty hty
    obtain rfl := Option.mem_some.1 hty
    rfl
  · intro v h
    obtain ⟨rfl, -⟩ := hleaves v none h
    exact ⟨rfl, rfl, welcome.wire, rfl⟩
  · intro resp h
    obtain rfl : (⟨welcome.wire, none⟩ : Response) = resp := by injection h
    exact ⟨_, rfl⟩
  · rintro ctx' arg' ⟨arg, -, hrest⟩
    cases hrest
  · intro v h
    cases (hleaves v _ h).2
  · intro ctx' arg' _ _
    rfl

/-- **What cannot be put on the wire is replaced.** The error of `fail` has
a text that is not valid UTF-8, and the caller gets another text; the
message of `garble` does not marshal, and the caller gets an error though
the method left none. And a panic of the method is not recovered when the
context has something else than a logger for its logger, or when it has one
and the receiver is a context that panics when it is asked. -/
theorem rpc_replaces :
    let fail := structMethod (lit "fail") fun _ => .returns none (some (.other [0xff]))
    let garble := structMethod (lit "garble") fun _ => .returns (some garbled) none
    let call := fun m => rpc structServer structRuntime (structRemotes m) ()
      ⟨lit "game", lit "room", m.name⟩ [] () (some hello)
    (isRemoteMethod fail = true ∧
      Leaves structRuntime (newRemote 0 fail) () hello.wire .nil (some (.other [0xff])) ∧
      call fail = .err (.nrpc ⟨errUnknownCode, errInvalidUTF8, .empty⟩)) ∧
    (isRemoteMethod garble = true ∧
      Leaves structRuntime (newRemote 0 garble) () hello.wire (.message garbled) none ∧
      call garble = .err (.nrpc ⟨errUnknownCode, errInvalidUTF8, .empty⟩)) ∧
    ∀ loggers ∈ [strangeContext, embeddedContext],
      rpc structServer { structRuntime with loggers := loggers }
        (structRemotes (structMethod (lit "crash") fun _ => .panics (.string (lit "boom")))) ()
        ⟨lit "game", lit "room", lit "crash"⟩ [] () (some hello) = .panic := by
  intro fail garble call
  refine ⟨⟨by decide, ⟨(), .message hello, ⟨.message hello, rfl, rfl⟩, rfl⟩, ?_⟩,
    ⟨by decide, ⟨(), .message hello, ⟨.message hello, rfl, rfl⟩, rfl⟩, ?_⟩, ?_⟩
  · decide +kernel
  · decide +kernel
  · simp only [List.mem_cons, List.not_mem_nil, or_false]
    rintro loggers (rfl | rfl) <;> decide +kernel

end Service

end Nrpc
