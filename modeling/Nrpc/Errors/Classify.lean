import Nrpc.Errors.Model.Errors
import Nrpc.Service.Transparent
/-!
# The code of an error

Four places tell the code of an error: `FromError`, the response of
`handleRPC`, `GetErrorPayload` and `NewError`. The last looks through the
layers of `fmt.Errorf`, the others ask whether the error itself is an
`*Error`. They agree as long as no layer stands before one
(`classifiers_agree_iff`).
-/

namespace Nrpc

namespace Errors

open Server Service

/-- The code an error has: that of the `*Error` along its layers. -/
def Err.code (err : Err) : GoString :=
  match err.as with
  | some e => e.code
  | none => errUnknownCode

/-- The error as the remote service sees it: an `*Error`, or a text. -/
def Err.view (err : Err) : GoError :=
  match err.assert with
  | some e => .nrpc e
  | none => .other err.error

/-- **`handleRPC` puts a code in its response** to a method that returns the
error, behind before hooks that succeed and after hooks that leave it. -/
def Responds (err : Err) (code : GoString) : Prop :=
  ∀ (C T M O : Type) (rt : Runtime C T M O) (remote : Remote T (Func C M O)) (ctx ctx' : C)
    (payload : List UInt8) (arg' : Value M O) (reply : Option M) (v : Value M O),
    BeforeLeaves rt remote ctx payload ctx' arg' none →
    remote.method.func remote.receiver ctx' arg' = .returns reply (some err.view) →
    executeAfterPipeline rt.hooks.afterHandler ctx' .nil (some err.view) = (v, some err.view) →
    ∃ resp e, handleRemote rt remote ctx payload = .ok resp ∧ resp.error = some e ∧ e.code = code

/-- **All four tell the same code.** -/
structure Agree (err : Err) (code : GoString) : Prop where
  fromError : fromError (.err err) = code
  responds : Responds err code
  payload : ∃ e : Server.Error, e.code = code ∧
    ∀ (β : Type) (marshal : Server.Error → Except GoString β),
      getErrorPayload marshal err = marshal e
  newError : (newError err errUnknownCode none).code = code

/-- The code an error shows without looking through its layers. -/
def Err.outerCode (err : Err) : GoString :=
  match err.assert with
  | some e => e.code
  | none => errUnknownCode

theorem fromError_eq (err : Err) : fromError (.err err) = err.outerCode := by
  cases h : err.assert with
  | none => simp only [Errors.fromError, Err.outerCode, h]
  | some e => simp only [Errors.fromError, Err.outerCode, h]

/-- What `GetErrorPayload` marshals has the code the error shows. -/
theorem getErrorPayload_code (err : Err) : ∃ e : Server.Error, e.code = err.outerCode ∧
    ∀ (β : Type) (marshal : Server.Error → Except GoString β),
      getErrorPayload marshal err = marshal e := by
  refine ⟨errorPayload err, ?_, fun _ _ => rfl⟩
  unfold errorPayload Err.outerCode
  cases err.assert <;> rfl

theorem newError_code (err : Err) : (newError err errUnknownCode none).code = err.code := by
  unfold Errors.newError Err.code
  cases err.as <;> rfl

/-- The response to an error that was left has the code it shows. -/
theorem errorLeft_view (err : Err) : ∃ resp e, errorLeft err.view = .ok resp ∧
    resp.error = some e ∧ e.code = err.outerCode := by
  unfold Err.view Err.outerCode
  cases err.assert with
  | none => exact ⟨_, _, rfl, rfl, rfl⟩
  | some e => exact ⟨_, e, rfl, rfl, rfl⟩

theorem responds_outerCode (err : Err) : Responds err err.outerCode := by
  intro C T M O rt remote ctx ctx' payload arg' reply v hbefore hmethod hafter
  obtain ⟨arg, harg, hpipeline⟩ := hbefore
  obtain ⟨resp, e, hleft, herror, hcode⟩ := errorLeft_view err
  refine ⟨resp, e, ?_, herror, hcode⟩
  simp only [handleRemote, harg, hpipeline, invoke, pcall, hmethod, Outcome.ok_bind, hafter,
    Outcome.pure_eq, hleft]

/-- An error that is an `*Error` shows its code; any other one shows none. -/
theorem outerCode_eq_iff (err : Err) : err.outerCode = err.code ↔
    ∀ e, err.as = some e → err = .nrpc e ∨ e.code = errUnknownCode := by
  cases err with
  | plain text => simp [Err.outerCode, Err.code, Err.assert, Err.as]
  | nrpc e => simp [Err.outerCode, Err.code, Err.assert, Err.as]
  | wrap text inner =>
    simp only [Err.outerCode, Err.code, Err.assert, Err.as]
    rcases inner.as with _ | e
    · simp
    · simp [eq_comm]

/-- **The four classifiers agree on an error, for layers of any depth,
exactly if** it has no `*Error` along its layers, or it is that `*Error`
itself, or the code there is the unknown one anyway. -/
theorem classifiers_agree_iff (err : Err) : Agree err err.code ↔
    ∀ e, err.as = some e → err = .nrpc e ∨ e.code = errUnknownCode := by
  rw [← outerCode_eq_iff]
  constructor
  · intro h
    rw [← fromError_eq]
    exact h.fromError
  · intro h
    refine ⟨?_, ?_, ?_, newError_code err⟩
    · rw [fromError_eq, h]
    · rw [← h]
      exact responds_outerCode err
    · rw [← h]
      exact getErrorPayload_code err

/-- **One layer around an `*Error` hides its code** from all but
`NewError`. -/
theorem wrapped_code_hidden :
    let err : Err := .wrap (lit "join: no room") (.nrpc ⟨lit "PIT-404", lit "no room", .empty⟩)
    (newError err errUnknownCode none).code = lit "PIT-404" ∧
      fromError (.err err) = lit "PIT-000" ∧
      getErrorPayload Except.ok err = .ok ⟨lit "PIT-000", lit "join: no room", .empty⟩ ∧
      ∃ resp e, errorLeft err.view = .ok resp ∧ resp.error = some e ∧
        e.code = lit "PIT-000" := by
  intro err
  exact ⟨rfl, rfl, rfl, _, _, rfl, rfl, rfl⟩

end Errors

end Nrpc
