import Mathlib.Data.List.DropRight
import Nrpc.Service.Dispatch
import Nrpc.Service.Model.Trace
/-!
# The hooks around a method

The hooks of a channel run in the order of its list: those pushed to the
front, the last one first, and then those pushed to the back, since the
channel was cleared. Around a method, the before hooks are broken off by an
error and the after hooks are not (`trace_follows_iff`).

The trace breaks off where a panic of the method escapes `Pcall`, and it
has no method where a before hook leaves values the method does not take.
-/

namespace Nrpc

/-! ## The list of a channel -/

namespace Pipeline

variable {H : Type}

def ChannelOp.isPush : ChannelOp H → Bool
  | .clear => false
  | _ => true

def ChannelOp.front? : ChannelOp H → Option H
  | .pushFront h => some h
  | _ => none

def ChannelOp.back? : ChannelOp H → Option H
  | .pushBack h => some h
  | _ => none

/-- The pushes behind the last `Clear`. -/
def sinceClear (ops : List (ChannelOp H)) : List (ChannelOp H) := ops.rtakeWhile ChannelOp.isPush

/-- **The list a program has pushed**: the fronts reversed, then the backs,
since the last `Clear`. -/
def pushed (ops : List (ChannelOp H)) : List H :=
  ((sinceClear ops).filterMap ChannelOp.front?).reverse ++
    (sinceClear ops).filterMap ChannelOp.back?

/-- **A channel holds what was pushed.** -/
theorem handlers_buildChannel (ops : List (ChannelOp H)) :
    (buildChannel ops).handlers = pushed ops := by
  induction ops using List.reverseRecOn with
  | nil => rfl
  | append_singleton ops op ih =>
    have hstep :
        (buildChannel (ops ++ [op])).handlers = ((buildChannel ops).apply op).handlers := by
      simp [buildChannel]
    rw [hstep]
    unfold pushed sinceClear at ih ⊢
    cases op with
    | pushFront h =>
      simp [Channel.apply, Channel.pushFront, ih, List.rtakeWhile_concat, ChannelOp.isPush,
        ChannelOp.front?, ChannelOp.back?]
    | pushBack h =>
      simp [Channel.apply, Channel.pushBack, ih, List.rtakeWhile_concat, ChannelOp.isPush,
        ChannelOp.front?, ChannelOp.back?]
    | clear => simp [Channel.apply, Channel.clear, ChannelOp.isPush]

end Pipeline

namespace Service

open Server Pipeline

variable {C T M O : Type} {remote : Remote T (Func C M O)} {ctx : C} {arg : Value M O}

/-! ## The pipelines and their traces -/

/-- The trace is kept next to what `ExecuteBeforePipeline` returns. -/
theorem tracedBefore_snd (hs : List (HandlerTempl C M O)) (ctx : C) (res : Value M O) :
    (tracedBefore hs ctx res).2 = executeBeforePipeline hs ctx res := by
  show (Chain.run beforeStep broken hs (ctx, res, none)).2 = executeBeforePipeline hs ctx res
  induction hs generalizing ctx res with
  | nil => rfl
  | cons h hs ih =>
    rcases hstep : h ctx res with ⟨ctx', res', err⟩
    cases err with
    | some err => simp [Chain.run, beforeStep, hstep, broken, executeBeforePipeline]
    | none => simp [Chain.run, beforeStep, hstep, broken, executeBeforePipeline, ih]

/-- The after pipeline goes through. -/
theorem tracedAfter_eq (hs : List (AfterHandlerTempl C M O)) (ctx : C) (ret : Value M O)
    (err : Option GoError) : tracedAfter hs ctx ret err =
      ((Chain.fed (afterStep ctx) hs (ret, err)).map (afterEvent ctx),
        executeAfterPipeline hs ctx ret err) := by
  have hgoes : Chain.Goes (afterStep ctx) (fun _ => false) hs (ret, err) := fun _ _ => rfl
  simp only [tracedAfter, Chain.run_of_goes hgoes]
  rfl

variable [DecidableEq T] {rt : Runtime C T M O} {dyn : Dynamic C T O}

/-- **The trace is kept next to what `handleRPC` returns.** -/
theorem tracedRemote_snd (payload : List UInt8) :
    (tracedRemote rt dyn remote ctx payload).2 = handleRemote rt remote ctx payload := by
  unfold tracedRemote handleRemote
  cases remoteArg rt.proto remote payload with
  | panic => rfl
  | err e => rfl
  | ok arg =>
    dsimp only
    rw [← tracedBefore_snd]
    rcases tracedBefore rt.hooks.beforeHandler ctx arg with ⟨before, ctx', arg', err⟩
    cases err with
    | some err => rfl
    | none =>
      dsimp only [tracedCall, invoke]
      cases pcall rt.loggers remote ctx' arg' with
      | panic => rfl
      | err e => rfl
      | ok p =>
        simp only [tracedAfter_eq, Outcome.ok_bind, Outcome.pure_eq]
        rcases executeAfterPipeline rt.hooks.afterHandler ctx' p.1 p.2 with ⟨ret, _ | err⟩ <;> rfl

theorem tracedMessage_snd (remotes : GoMap GoString (Remote T (Func C M O))) (req : Request) :
    (tracedMessage rt dyn remotes ctx req).2 = processRemoteMessage rt remotes ctx req := by
  unfold tracedMessage processRemoteMessage
  cases lookup remotes req.route with
  | error resp => rfl
  | ok remote => exact tracedRemote_snd _

/-! ## What is to run -/

/-- **The trace of a request with these hooks**: the before hooks up to the
first that fails, each fed what the one before it returned; or all of them,
then the method, with what the last one returned, and then every after
hook, each fed what the one before it returned. -/
inductive Follows (loggers : Loggers C M O) (remote : Remote T (Func C M O))
    (before : List (HandlerTempl C M O)) (after : List (AfterHandlerTempl C M O)) (ctx : C)
    (arg : Value M O) (trace : List (Event C M O)) : Prop
  | stopped (ran : List (HandlerTempl C M O)) (h : HandlerTempl C M O)
      (rest : List (HandlerTempl C M O)) (hsplit : before = ran ++ h :: rest)
      (hgoes : Chain.Goes beforeStep broken ran (ctx, arg, none))
      (hfails : broken (beforeStep h (Chain.left beforeStep ran (ctx, arg, none))) = true)
      (htrace : trace = (Chain.fed beforeStep (ran ++ [h]) (ctx, arg, none)).map beforeEvent)
  | completed (ctx' : C) (arg' : Value M O) (ret : Value M O × Option GoError)
      (hgoes : Chain.Goes beforeStep broken before (ctx, arg, none))
      (hleft : Chain.left beforeStep before (ctx, arg, none) = (ctx', arg', none))
      (hret : pcall loggers remote ctx' arg' = .ok ret)
      (htrace : trace = (Chain.fed beforeStep before (ctx, arg, none)).map beforeEvent ++
        methodEvent remote ctx' arg' ::
          (Chain.fed (afterStep ctx') after ret).map (afterEvent ctx'))

/-- Before hooks that do not fail. -/
theorem tracedBefore_of_goes {hs : List (HandlerTempl C M O)}
    (hgoes : Chain.Goes beforeStep broken hs (ctx, arg, none)) :
    ∃ ctx' arg', Chain.left beforeStep hs (ctx, arg, none) = (ctx', arg', none) ∧
      tracedBefore hs ctx arg =
        ((Chain.fed beforeStep hs (ctx, arg, none)).map beforeEvent, ctx', arg', none) := by
  have hnone : broken (Chain.left beforeStep hs (ctx, arg, none)) = false :=
    Chain.stop_left hgoes rfl
  rcases hleft : Chain.left beforeStep hs (ctx, arg, none) with ⟨ctx', arg', _ | err⟩
  · exact ⟨ctx', arg', rfl, by simp only [tracedBefore, Chain.run_of_goes hgoes, hleft]⟩
  · rw [hleft] at hnone
    cases hnone

/-- Before hooks of which one fails. -/
theorem tracedBefore_of_stops {ran : List (HandlerTempl C M O)} {h : HandlerTempl C M O}
    (rest : List (HandlerTempl C M O))
    (hgoes : Chain.Goes beforeStep broken ran (ctx, arg, none))
    (hfails : broken (beforeStep h (Chain.left beforeStep ran (ctx, arg, none))) = true) :
    ∃ ctx' arg' err, tracedBefore (ran ++ h :: rest) ctx arg =
      ((Chain.fed beforeStep (ran ++ [h]) (ctx, arg, none)).map beforeEvent, ctx', arg',
        some err) := by
  rcases hstep : beforeStep h (Chain.left beforeStep ran (ctx, arg, none)) with
    ⟨ctx', arg', _ | err⟩
  · rw [hstep] at hfails
    cases hfails
  · exact ⟨ctx', arg', err, by simp only [tracedBefore, Chain.run_of_stops hgoes hfails, hstep]⟩

section Trace

variable {payload : List UInt8} {before : List (Event C M O)} {ctx' : C} {arg' : Value M O}

theorem trace_of_stopped {err : GoError} (harg : remoteArg rt.proto remote payload = .ok arg)
    (hbefore : tracedBefore rt.hooks.beforeHandler ctx arg = (before, ctx', arg', some err)) :
    (tracedRemote rt dyn remote ctx payload).1 = before := by
  simp only [tracedRemote, harg, hbefore]

/-- The trace behind before hooks that do not fail, and a method that
returns to `handleRPC`. -/
theorem trace_of_returned {ret : Value M O × Option GoError}
    (harg : remoteArg rt.proto remote payload = .ok arg)
    (hbefore : tracedBefore rt.hooks.beforeHandler ctx arg = (before, ctx', arg', none))
    (hret : pcall rt.loggers remote ctx' arg' = .ok ret) :
    (tracedRemote rt dyn remote ctx payload).1 =
      before ++ (tracedCall rt dyn remote ctx' arg').1 ++
        (Chain.fed (afterStep ctx') rt.hooks.afterHandler ret).map (afterEvent ctx') := by
  simp only [tracedRemote, harg, hbefore, tracedCall, hret, tracedAfter_eq]
  rcases executeAfterPipeline rt.hooks.afterHandler ctx' ret.1 ret.2 with ⟨_, _ | err⟩ <;> rfl

/-- The trace of a request whose before hooks do not fail, whose method is
entered and returns to `handleRPC`. -/
theorem follows_of_goes (harg : remoteArg rt.proto remote payload = .ok arg)
    (hgoes : Chain.Goes beforeStep broken rt.hooks.beforeHandler (ctx, arg, none))
    (hleft : Chain.left beforeStep rt.hooks.beforeHandler (ctx, arg, none) = (ctx', arg', none))
    (htraced : tracedBefore rt.hooks.beforeHandler ctx arg =
      ((Chain.fed beforeStep rt.hooks.beforeHandler (ctx, arg, none)).map beforeEvent, ctx', arg',
        none)) :
    Follows rt.loggers remote rt.hooks.beforeHandler rt.hooks.afterHandler ctx arg
        (tracedRemote rt dyn remote ctx payload).1 ↔
      Callable dyn (callParams rt.proto dyn remote ctx' arg') remote.method.ins ∧
        pcall rt.loggers remote ctx' arg' ≠ .panic := by
  constructor
  · rintro (⟨ran, h, rest, hsplit, -, hfails, -⟩ | ⟨ctx'', arg'', ret, -, hleft', hret, htrace⟩)
    · rw [hsplit] at hgoes
      exact absurd hgoes (Chain.not_goes_of_stops hfails)
    · rw [hleft] at hleft'
      cases hleft'
      refine ⟨?_, by simp [hret]⟩
      by_contra hcall
      -- a call that is refused leaves no method in front of the after hooks
      rw [trace_of_returned harg htraced hret, tracedCall, if_neg hcall, List.append_nil] at htrace
      have hmem : methodEvent remote ctx' arg' ∈
          (Chain.fed (afterStep ctx') rt.hooks.afterHandler ret).map (afterEvent ctx') := by
        rw [List.append_cancel_left htrace]
        exact List.mem_cons_self
      simp [methodEvent, afterEvent] at hmem
  · rintro ⟨hcall, hpanic⟩
    cases hret : pcall rt.loggers remote ctx' arg' with
    | panic => exact absurd hret hpanic
    | err e => exact absurd hret pcall_ne_err
    | ok ret =>
      refine .completed ctx' arg' ret hgoes hleft hret ?_
      rw [trace_of_returned harg htraced hret, tracedCall, if_pos hcall, List.append_assoc]
      rfl

/-- **A request follows its hooks** unless its before hooks go through and
the call is refused or panics. -/
theorem follows_iff (rt : Runtime C T M O) (harg : remoteArg rt.proto remote payload = .ok arg) :
    Follows rt.loggers remote rt.hooks.beforeHandler rt.hooks.afterHandler ctx arg
        (tracedRemote rt dyn remote ctx payload).1 ↔
      ∀ ctx' arg', executeBeforePipeline rt.hooks.beforeHandler ctx arg = (ctx', arg', none) →
        Callable dyn (callParams rt.proto dyn remote ctx' arg') remote.method.ins ∧
          pcall rt.loggers remote ctx' arg' ≠ .panic := by
  rcases Chain.goes_or_stops rt.hooks.beforeHandler (ctx, arg, none) with
    hgoes | ⟨ran, h, rest, hsplit, hgoes, hfails⟩
  · obtain ⟨ctx', arg', hleft, htraced⟩ := tracedBefore_of_goes hgoes
    have hexec : executeBeforePipeline rt.hooks.beforeHandler ctx arg = (ctx', arg', none) := by
      rw [← tracedBefore_snd, htraced]
    rw [follows_of_goes harg hgoes hleft htraced, hexec]
    constructor
    · rintro h _ _ ⟨⟩
      exact h
    · exact fun h => h ctx' arg' rfl
  · obtain ⟨ctx', arg', err, htraced⟩ := tracedBefore_of_stops rest hgoes hfails
    rw [← hsplit] at htraced
    refine ⟨fun _ ctx'' arg'' hexec => ?_, fun _ => ?_⟩
    · rw [← tracedBefore_snd, htraced] at hexec
      cases hexec
    · exact .stopped ran h rest hsplit hgoes hfails (trace_of_stopped harg htraced)

end Trace

/-- **A request follows its hooks exactly when**, if no before hook fails,
what they leave passes the checks of the method's call, and a panic of the
method is logged: the first context among the receiver, the context and the
argument with something under the logger's key has a logger there. -/
theorem trace_follows_iff (beforeOps : List (ChannelOp (HandlerTempl C M O)))
    (afterOps : List (ChannelOp (AfterHandlerTempl C M O))) (proto : Proto T M)
    (loggers : Loggers C M O) (dyn : Dynamic C T O)
    (remotes : GoMap GoString (Remote T (Func C M O))) (remote : Remote T (Func C M O)) (ctx : C)
    (req : Request) (arg : Value M O) (hlookup : lookup remotes req.route = .ok remote)
    (harg : remoteArg proto remote ((req.msg.map Msg.data).getD []) = .ok arg) :
    Follows loggers remote (pushed beforeOps) (pushed afterOps) ctx arg
        (tracedMessage ⟨proto, loggers, buildHooks beforeOps afterOps⟩ dyn remotes ctx req).1 ↔
      ∀ ctx' arg', executeBeforePipeline (pushed beforeOps) ctx arg = (ctx', arg', none) →
        Callable dyn (callParams proto dyn remote ctx' arg') remote.method.ins ∧
          ¬ ((∃ rec, remote.method.func remote.receiver ctx' arg' = .panics rec) ∧
            ¬ loggers.Logs remote ctx' arg') := by
  have hhooks : buildHooks beforeOps afterOps = ⟨pushed beforeOps, pushed afterOps⟩ := by
    simp only [buildHooks, handlers_buildChannel]
  simp only [hhooks, tracedMessage, hlookup, ← pcall_eq_panic_iff]
  exact follows_iff ⟨proto, loggers, ⟨pushed beforeOps, pushed afterOps⟩⟩ harg

/-! ## Requests to a room -/

/-- A before hook that passes on what it is fed. -/
def passOn : HandlerTempl Unit SomeStruct Unit := fun ctx res => (ctx, res, none)

/-- A before hook that puts a value of another type in place of the argument. -/
def replace : HandlerTempl Unit SomeStruct Unit := fun ctx _ => (ctx, .other (), none)

/-- An after hook that passes on what it is fed. -/
def record : AfterHandlerTempl Unit SomeStruct Unit := fun _ ret err => (ret, err)

/-- The text of reflection's panic over a `*Room` for an argument. -/
def errCallUsing : GoString := lit "reflect: Call using *Room as type *SomeStruct"

/-- `Enter`, with a body that panics. -/
def enterPanics : Method RoomType (Func Unit SomeStruct Unit) :=
  { enter with
    func := fun _ _ arg =>
      match arg with
      | .message _ => .panics (.string (lit "no such room"))
      | _ => .panics (.string errCallUsing) }

/-- The room's remotes, with this method for `Enter`. -/
def roomRemotes (m : Method RoomType (Func Unit SomeStruct Unit)) :
    GoMap GoString (Remote RoomType (Func Unit SomeStruct Unit)) :=
  GoMap.empty.set (lit "room.Enter") (newRemote 0 m)

/-- The request `room.Enter` with `hello`. -/
def enterRequest : Request :=
  rpcRequest ⟨lit "game", lit "room", lit "Enter"⟩ [] hello.wire

theorem lookup_roomRemotes (m : Method RoomType (Func Unit SomeStruct Unit)) :
    lookup (roomRemotes m) enterRequest.route = .ok (newRemote 0 m) := by
  have hroute : decodeRoute enterRequest.route = .ok ⟨lit "game", lit "room", lit "Enter"⟩ := by
    decide +kernel
  have hget : (roomRemotes m).get? (Route.short ⟨lit "game", lit "room", lit "Enter"⟩) =
      some (newRemote 0 m) :=
    GoMap.get?_set_self _ _ _
  simp only [lookup, hroute, hget]

/-- A request whose hooks pass everything on follows them. -/
theorem trace_follows_iff_enter :
    Follows defaultLoggers (newRemote 0 enter) [passOn, passOn] [record] () (.message hello)
      (tracedMessage ⟨roomProto, defaultLoggers, buildHooks
        [.pushBack replace, .clear, .pushBack passOn, .pushFront passOn] [.pushFront record]⟩
        roomDynamic (roomRemotes enter) () enterRequest).1 := by
  refine (trace_follows_iff [.pushBack replace, .clear, .pushBack passOn, .pushFront passOn]
    [.pushFront record] roomProto defaultLoggers roomDynamic (roomRemotes enter)
    (newRemote 0 enter) () enterRequest (.message hello) (lookup_roomRemotes enter) rfl).2 ?_
  rintro ctx' arg' ⟨⟩
  exact ⟨by decide +kernel, fun h => h.2 rfl⟩

/-- **A request need not follow its hooks.** When the method panics and the
context has something else than a logger under the logger's key, or the
receiver is a context that cannot be asked, the panic escapes `Pcall` and no
after hook runs. And when a before hook puts a value of another type in place
of the argument, the after hooks run and the method does not. -/
theorem hooks_not_followed :
    (∀ loggers ∈ [strangeContext, embeddedContext],
      let trace := (tracedMessage
        ⟨roomProto, loggers, buildHooks [.pushBack passOn] [.pushBack record]⟩
        roomDynamic (roomRemotes enterPanics) () enterRequest).1
      trace = [.before passOn () (.message hello), .method () (some (.message hello))] ∧
        ¬ Follows loggers (newRemote 0 enterPanics) [passOn] [record] () (.message hello) trace) ∧
    let trace := (tracedMessage
      ⟨roomProto, defaultLoggers, buildHooks [.pushBack replace] [.pushBack record]⟩
      roomDynamic (roomRemotes enterPanics) () enterRequest).1
    trace = [.before replace () (.message hello),
        .after record () .nil (some (.other errCallUsing))] ∧
      ¬ Follows defaultLoggers (newRemote 0 enterPanics) [replace] [record] () (.message hello)
        trace := by
  have htrace : ∀ rt : Runtime Unit RoomType SomeStruct Unit,
      tracedMessage rt roomDynamic (roomRemotes enterPanics) () enterRequest =
        tracedRemote rt roomDynamic (newRemote 0 enterPanics) () hello.wire := by
    intro rt
    simp only [tracedMessage, lookup_roomRemotes]
    rfl
  simp only [htrace, List.mem_cons, List.not_mem_nil, or_false]
  refine ⟨?_, rfl, fun h => ?_⟩
  · rintro loggers (rfl | rfl)
    · refine ⟨rfl, fun h => ?_⟩
      exact ((follows_iff ⟨roomProto, strangeContext, ⟨[passOn], [record]⟩⟩ rfl).1 h ()
        (.message hello) rfl).2 rfl
    · refine ⟨rfl, fun h => ?_⟩
      exact ((follows_iff ⟨roomProto, embeddedContext, ⟨[passOn], [record]⟩⟩ rfl).1 h ()
        (.message hello) rfl).2 rfl
  · have hcall := ((follows_iff ⟨roomProto, defaultLoggers, ⟨[replace], [record]⟩⟩ rfl).1 h ()
      (.other ()) rfl).1
    exact absurd hcall (by decide +kernel)

end Service

end Nrpc
