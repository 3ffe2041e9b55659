import Nrpc.Context.Access
import Nrpc.Client.Model.Call
/-!
# When contexts are not corrupted by use

A context is meant to be a value: what it propagates is what the steps on
its own derivation path put there (`paths`), and a call adds its own stamps
to a copy (`stamp`). The code writes in place. `AddToPropagateCtx` and
`Call` change the map of the context they are given, so the parent, its
other children and later calls see the write.

A program that uses a context with a map no more after passing it to
`AddToPropagateCtx` or to `Call` cannot tell the difference
(`faithful_of_linear`): each map is reached through one context that is
still in use, and a context without a map is given a new one every time.
Two calls on one context with a map can: the second is sent with the first
one's start time and request id (`second_call_restamped`).
-/

namespace Nrpc

namespace Client

open Context

variable {h : Store} {r : ℕ} {env : CallEnv} {m : PropagateMap}

/-! ## Contexts as values -/

/-- A value set if the map has none. -/
def setIfNil (m : PropagateMap) (key val : GoString) : PropagateMap :=
  match index m key with
  | .nil => m.set key (.string val)
  | _ => m

/-- The request id, set if the map has none or an empty one. -/
def setRequestID (m : PropagateMap) (nuid : GoString) : PropagateMap :=
  match index m requestIDKey with
  | .nil | .string [] => m.set requestIDKey (.string nuid)
  | _ => m

/-- What `Call` itself adds to the caller's values. -/
def stampOwn (m : PropagateMap) (env : CallEnv) : PropagateMap :=
  setIfNil
    (setIfNil (setRequestID (m.set routeKey (.string env.route)) env.nuid) requestTimeout
      env.reqTimeout)
    startTimeKey (formatInt env.now)

/-- **The metadata of a call**: the caller's values and the stamps of this
call. -/
def stamp (m : PropagateMap) (env : CallEnv) : PropagateMap :=
  (((stampOwn m env).set spanPropagateCtxKey (.carrier (env.inject.toOption.getD []))).set
    peerIDKey (.string env.serverID)).set peerServiceKey (.string env.serverType)

/-- The values on each context's derivation path, after one more step. -/
def extendPaths (ps : List PropagateMap) : Op → List PropagateMap
  | .background => ps ++ [.empty]
  | .fromMap m => ps ++ [m]
  | .add c key val =>
    match ps[c]? with
    | none => ps
    | some m => ps ++ [m.set key val]
  | .get _ _ | .call _ _ => ps

/-- **The values on each context's derivation path.** -/
def paths (prog : List Op) : List PropagateMap := prog.foldl extendPaths []

/-- What is seen is what the derivation path says. -/
def Obs.Faithful (ps : List PropagateMap) : Obs → Prop
  | .read c key val => ∃ m, ps[c]? = some m ∧ val = index m key
  | .sent c env metadata => ∃ m, ps[c]? = some m ∧ metadata = stamp m env

/-! ## Use before, not after -/

/-- What is known of a context from the program text: it has no map, it has
a map, or it has one that was passed on to be written. -/
inductive Status
  | bare
  | live
  | spent
deriving DecidableEq

/-- Context `c` was passed on to be written. -/
def spend (st : List Status) (c : ℕ) : List Status :=
  if st[c]? = some .live then st.set c .spent else st

/-- The context a step works on. -/
def Op.uses : Op → Option ℕ
  | .add c _ _ | .get c _ | .call c _ => some c
  | _ => none

/-- What is known after one more step. -/
def extendStatus (st : List Status) : Op → List Status
  | .background => st ++ [.bare]
  | .fromMap _ => st ++ [.live]
  | .add c _ _ => if c < st.length then spend st c ++ [.live] else st
  | .get _ _ => st
  | .call c env => if env.running then spend st c else st

/-- **No step works on a context with a map that an earlier step passed to
`AddToPropagateCtx` or to `Call`.** -/
def LinearFrom : List Status → List Op → Prop
  | _, [] => True
  | st, op :: ops =>
    (∀ c ∈ op.uses, st[c]? ≠ some .spent) ∧ LinearFrom (extendStatus st op) ops

/-- The condition on a whole program. -/
def Linear (prog : List Op) : Prop := LinearFrom [] prog

instance decidableLinearFrom : ∀ st prog, Decidable (LinearFrom st prog)
  | _, [] => isTrue trivial
  | st, op :: ops =>
    have := decidableLinearFrom (extendStatus st op) ops
    inferInstanceAs (Decidable ((∀ c ∈ op.uses, st[c]? ≠ some .spent) ∧ _))

instance (prog : List Op) : Decidable (Linear prog) := decidableLinearFrom [] prog

/-! ## A call on the heap -/

theorem stampRequestID_map :
    stampRequestID h ⟨some (some r)⟩ (some r) env =
      .ok (h.write r (setRequestID (h.read r) env.nuid)) := by
  simp only [stampRequestID, get_map, setRequestID]
  split
  · simp [assign, *]
  · simp [assign, *]
  · simp

theorem stampIfNil_map {key val : GoString} :
    stampIfNil h ⟨some (some r)⟩ (some r) key val =
      .ok (h.write r (setIfNil (h.read r) key val)) := by
  simp only [stampIfNil, get_map, setIfNil]
  split
  · simp [assign, *]
  · simp

/-- **A call on a context with a map writes the stamps into that map.** -/
theorem stampCall_map :
    stampCall h ⟨some (some r)⟩ env =
      .ok (⟨some (some r)⟩, h.write r (stampOwn (h.read r) env)) := by
  simp [stampCall, assign, stampRequestID_map, stampIfNil_map, stampOwn]

/-- A context without values is given every stamp. -/
theorem stampOwn_empty :
    stampOwn .empty env =
      (((GoMap.empty.set routeKey (.string env.route)).set requestIDKey (.string env.nuid)).set
        requestTimeout (.string env.reqTimeout)).set startTimeKey
          (.string (formatInt env.now)) := by
  have hid : index (GoMap.empty.set routeKey (.string env.route)) requestIDKey = .nil := by
    rw [index_set_of_ne (by decide), index_empty]
  have htimeout : index ((GoMap.empty.set routeKey (.string env.route)).set requestIDKey
      (.string env.nuid)) requestTimeout = .nil := by
    rw [index_set_of_ne (by decide), index_set_of_ne (by decide), index_empty]
  have hstart : index (((GoMap.empty.set routeKey (.string env.route)).set requestIDKey
      (.string env.nuid)).set requestTimeout (.string env.reqTimeout)) startTimeKey = .nil := by
    rw [index_set_of_ne (by decide), index_set_of_ne (by decide), index_set_of_ne (by decide),
      index_empty]
  simp only [stampOwn, setRequestID, setIfNil, hid, htimeout, hstart]

/-- **A call on a context without a map writes the stamps into a new
one.** -/
theorem stampCall_bare :
    stampCall h ⟨none⟩ env =
      .ok (⟨some (some h.next)⟩, h.alloc (stampOwn .empty env)) := by
  simp [stampCall, assign, stampRequestID, stampIfNil, stampOwn_empty]

theorem buildRequest_map :
    buildRequest h ⟨some (some r)⟩ env =
      match env.inject with
      | .error _ => .panic
      | .ok carrier => .ok (⟨some (some r)⟩, h.write r
          ((((h.read r).set spanPropagateCtxKey (.carrier carrier)).set peerIDKey
            (.string env.serverID)).set peerServiceKey (.string env.serverType))) := by
  rcases hinject : env.inject with e | carrier
  · simp [buildRequest, injectSpan, hinject, addToPropagateCtx, toMap, assign]
  · simp [buildRequest, injectSpan, hinject]

/-- What a call leaves under its reference when the tracer fails, and when
it does not. -/
def leaves (m : PropagateMap) (env : CallEnv) : PropagateMap :=
  match env.inject with
  | .error _ => stampOwn m env
  | .ok _ => stamp m env

/-- **A call works on one map**: its context's, or a new one. It sends that
map, stamped, or nothing. -/
theorem call_map (hrun : env.running = true) :
    call h ⟨some (some r)⟩ env =
      (env.inject.toOption.map fun _ => ⟨some (some r)⟩, h.write r (leaves (h.read r) env)) := by
  simp only [call, if_pos hrun, stampCall_map, buildRequest_map, leaves, stamp]
  rcases env.inject with e | carrier
  · rfl
  · simp [Except.toOption]

theorem call_bare (hrun : env.running = true) :
    call h ⟨none⟩ env =
      (env.inject.toOption.map fun _ => ⟨some (some h.next)⟩, h.alloc (leaves .empty env)) := by
  simp only [call, if_pos hrun, stampCall_bare, buildRequest_map, leaves, stamp]
  rcases env.inject with e | carrier
  · rfl
  · simp [Except.toOption]

theorem call_idle (hrun : env.running = false) (ctx : Ctx) : call h ctx env = (none, h) := by
  simp [call, hrun]

/-! ## The two readings of a program agree -/

variable {s : State} {ps : List PropagateMap} {st : List Status} {c d : ℕ}

theorem getElem?_snoc_iff {α : Type*} {l : List α} {x y : α} :
    (l ++ [x])[c]? = some y ↔ l[c]? = some y ∨ (c = l.length ∧ x = y) := by
  rcases Nat.lt_trichotomy c l.length with hlt | rfl | hgt
  · rw [List.getElem?_append_left hlt]
    constructor
    · exact Or.inl
    · rintro (h | ⟨h, -⟩)
      · exact h
      · omega
  · simp
  · have hnone : (l ++ [x])[c]? = none := List.getElem?_eq_none (by simp; omega)
    have hnone' : l[c]? = none := List.getElem?_eq_none (by omega)
    rw [hnone, hnone']
    simp
    omega

@[simp] theorem length_spend : (spend st c).length = st.length := by
  unfold spend
  split <;> simp

theorem spend_eq_live_iff : (spend st c)[d]? = some .live ↔ st[d]? = some .live ∧ d ≠ c := by
  unfold spend
  split
  · rename_i hc
    by_cases hdc : d = c
    · subst hdc
      have hlt := (List.getElem?_eq_some_iff.1 hc).1
      simp [hlt]
    · rw [List.getElem?_set_ne (Ne.symm hdc)]
      simp [hdc]
  · rename_i hc
    refine ⟨fun h => ⟨h, ?_⟩, fun h => h.1⟩
    rintro rfl
    exact hc h

theorem spend_eq_bare_iff : (spend st c)[d]? = some .bare ↔ st[d]? = some .bare := by
  unfold spend
  split
  · rename_i hc
    by_cases hdc : d = c
    · subst hdc
      have hlt := (List.getElem?_eq_some_iff.1 hc).1
      rw [List.getElem?_set_self hlt, hc]
      simp
    · rw [List.getElem?_set_ne (Ne.symm hdc)]
  · rfl

theorem spend_of_bare (hc : st[c]? = some .bare) : spend st c = st := by
  unfold spend
  rw [hc, if_neg (by decide)]

/-- What was faithful stays faithful as contexts are added. -/
theorem Obs.Faithful.snoc {o : Obs} (ho : o.Faithful ps) : o.Faithful (ps ++ [m]) := by
  cases o with
  | read c key val =>
    obtain ⟨m', hm', hval⟩ := ho
    exact ⟨m', getElem?_snoc_iff.2 (Or.inl hm'), hval⟩
  | sent c env metadata =>
    obtain ⟨m', hm', hval⟩ := ho
    exact ⟨m', getElem?_snoc_iff.2 (Or.inl hm'), hval⟩

/-- **The heap agrees with the derivation paths** on every context that is
not spent: a bare context has no map, a live one has a map with the values
of its path, and no two live contexts share a map. -/
structure Agrees (s : State) (ps : List PropagateMap) (st : List Status) : Prop where
  ctxs_length : s.ctxs.length = st.length
  paths_length : ps.length = st.length
  bare : ∀ c : ℕ, st[c]? = some .bare → s.ctxs[c]? = some ⟨none⟩ ∧ ps[c]? = some .empty
  live : ∀ c : ℕ, st[c]? = some .live →
    ∃ r < s.heap.next, s.ctxs[c]? = some ⟨some (some r)⟩ ∧ ps[c]? = some (s.heap.read r)
  apart : ∀ c d r : ℕ, st[c]? = some .live → st[d]? = some .live →
    s.ctxs[c]? = some ⟨some (some r)⟩ → s.ctxs[d]? = some ⟨some (some r)⟩ → c = d
  faithful : ∀ o ∈ s.obs, o.Faithful ps

theorem agrees_init : Agrees .init [] [] where
  ctxs_length := rfl
  paths_length := rfl
  bare := by simp
  live := by simp
  apart := by simp
  faithful := by simp [State.init]

namespace Agrees

/-- A new map that no context holds. -/
theorem alloc (hs : Agrees s ps st) (m : PropagateMap) :
    Agrees { s with heap := s.heap.alloc m } ps st where
  ctxs_length := hs.ctxs_length
  paths_length := hs.paths_length
  bare := hs.bare
  live := by
    intro c hc
    obtain ⟨r, hr, hctx, hpath⟩ := hs.live c hc
    refine ⟨r, Nat.lt_succ_of_lt hr, hctx, ?_⟩
    rw [hpath, Heap.read_alloc_of_lt hr]
  apart := hs.apart
  faithful := hs.faithful

/-- **A write to a live context's map spends the context.** The other live
contexts have other maps. -/
theorem write (hs : Agrees s ps st) (hc : st[c]? = some .live)
    (hctx : s.ctxs[c]? = some ⟨some (some r)⟩) (m : PropagateMap) :
    Agrees { s with heap := s.heap.write r m } ps (spend st c) where
  ctxs_length := by simpa using hs.ctxs_length
  paths_length := by simpa using hs.paths_length
  bare := fun d hd => hs.bare d (spend_eq_bare_iff.1 hd)
  live := by
    intro d hd
    obtain ⟨hlive, hne⟩ := spend_eq_live_iff.1 hd
    obtain ⟨r', hr', hctx', hpath⟩ := hs.live d hlive
    have hrr : r' ≠ r := by
      rintro rfl
      exact hne (hs.apart d c r' hlive hc hctx' hctx)
    exact ⟨r', hr', hctx', by rw [hpath, Heap.read_write_of_ne hrr]⟩
  apart := by
    intro d e r' hd he
    exact hs.apart d e r' (spend_eq_live_iff.1 hd).1 (spend_eq_live_iff.1 he).1
  faithful := hs.faithful

/-- One more observation. -/
theorem see (hs : Agrees s ps st) {o : Obs} (ho : o.Faithful ps) :
    Agrees { s with obs := s.obs ++ [o] } ps st where
  ctxs_length := hs.ctxs_length
  paths_length := hs.paths_length
  bare := hs.bare
  live := hs.live
  apart := hs.apart
  faithful := by
    intro o' ho'
    rcases List.mem_append.1 ho' with ho' | ho'
    · exact hs.faithful o' ho'
    · rw [List.mem_singleton.1 ho']
      exact ho

theorem snoc_bare (hs : Agrees s ps st) :
    Agrees { s with ctxs := s.ctxs ++ [⟨none⟩] } (ps ++ [.empty]) (st ++ [.bare]) where
  ctxs_length := by simp [hs.ctxs_length]
  paths_length := by simp [hs.paths_length]
  bare := by
    intro c hc
    simp only [getElem?_snoc_iff, hs.ctxs_length, hs.paths_length]
    rcases getElem?_snoc_iff.1 hc with hc | ⟨hlen, -⟩
    · exact ⟨Or.inl (hs.bare c hc).1, Or.inl (hs.bare c hc).2⟩
    · exact ⟨Or.inr ⟨hlen, trivial⟩, Or.inr ⟨hlen, trivial⟩⟩
  live := by
    intro c hc
    rcases getElem?_snoc_iff.1 hc with hc | ⟨-, hc⟩
    · obtain ⟨r, hr, hctx, hpath⟩ := hs.live c hc
      exact ⟨r, hr, getElem?_snoc_iff.2 (Or.inl hctx), getElem?_snoc_iff.2 (Or.inl hpath)⟩
    · cases hc
  apart := by
    intro c d r hc hd hcr hdr
    rcases getElem?_snoc_iff.1 hc with hc | ⟨-, hc⟩
    · rcases getElem?_snoc_iff.1 hd with hd | ⟨-, hd⟩
      · rcases getElem?_snoc_iff.1 hcr with hcr | ⟨-, hcr⟩
        · rcases getElem?_snoc_iff.1 hdr with hdr | ⟨-, hdr⟩
          · exact hs.apart c d r hc hd hcr hdr
          · cases hdr
        · cases hcr
      · cases hd
    · cases hc
  faithful := fun o ho => (hs.faithful o ho).snoc

/-- A live context of the longer list is an old one or the new one. -/
theorem snoc_live_cases (hs : Agrees s ps st) {r' : ℕ}
    (hc : (st ++ [Status.live])[c]? = some .live)
    (hcr : (s.ctxs ++ [⟨some (some r)⟩])[c]? = some ⟨some (some r')⟩) :
    (st[c]? = some .live ∧ s.ctxs[c]? = some ⟨some (some r')⟩) ∨ (c = st.length ∧ r' = r) := by
  have hlength := hs.ctxs_length
  rcases getElem?_snoc_iff.1 hc with hc | ⟨hlen, -⟩
  · rcases getElem?_snoc_iff.1 hcr with hcr | ⟨hlen, -⟩
    · exact Or.inl ⟨hc, hcr⟩
    · have hlt := (List.getElem?_eq_some_iff.1 hc).1
      omega
  · rcases getElem?_snoc_iff.1 hcr with hcr | ⟨-, hcr⟩
    · have hlt := (List.getElem?_eq_some_iff.1 hcr).1
      omega
    · exact Or.inr ⟨hlen, by simpa using hcr.symm⟩

/-- A new context on a map that no live context holds. -/
theorem snoc_live (hs : Agrees s ps st) (hr : r < s.heap.next)
    (hfree : ∀ c : ℕ, st[c]? = some .live → s.ctxs[c]? ≠ some ⟨some (some r)⟩) :
    Agrees { s with ctxs := s.ctxs ++ [⟨some (some r)⟩] } (ps ++ [s.heap.read r])
      (st ++ [.live]) where
  ctxs_length := by simp [hs.ctxs_length]
  paths_length := by simp [hs.paths_length]
  bare := by
    intro c hc
    rcases getElem?_snoc_iff.1 hc with hc | ⟨-, hc⟩
    · exact ⟨getElem?_snoc_iff.2 (Or.inl (hs.bare c hc).1),
        getElem?_snoc_iff.2 (Or.inl (hs.bare c hc).2)⟩
    · cases hc
  live := by
    intro c hc
    simp only [getElem?_snoc_iff, hs.ctxs_length, hs.paths_length]
    rcases getElem?_snoc_iff.1 hc with hc | ⟨hlen, -⟩
    · obtain ⟨r', hr', hctx, hpath⟩ := hs.live c hc
      exact ⟨r', hr', Or.inl hctx, Or.inl hpath⟩
    · exact ⟨r, hr, Or.inr ⟨hlen, rfl⟩, Or.inr ⟨hlen, rfl⟩⟩
  apart := by
    -- the new context is the only one at its index and the only live one on its map
    intro c d r' hc hd hcr hdr
    rcases hs.snoc_live_cases hc hcr with ⟨hc', hcr'⟩ | ⟨hclen, hcr'⟩ <;>
      rcases hs.snoc_live_cases hd hdr with ⟨hd', hdr'⟩ | ⟨hdlen, hdr'⟩
    · exact hs.apart c d r' hc' hd' hcr' hdr'
    · rw [hdr'] at hcr'
      exact absurd hcr' (hfree c hc')
    · rw [hcr'] at hdr'
      exact absurd hdr' (hfree d hd')
    · rw [hclen, hdlen]
  faithful := fun o ho => (hs.faithful o ho).snoc

/-- No live context holds a reference not handed out yet. -/
theorem ne_next (hs : Agrees s ps st) (hc : st[c]? = some .live) :
    s.ctxs[c]? ≠ some ⟨some (some s.heap.next)⟩ := by
  intro hctx
  obtain ⟨r, hr, hctx', -⟩ := hs.live c hc
  rw [hctx'] at hctx
  obtain rfl : r = s.heap.next := by simpa using hctx
  exact lt_irrefl _ hr

/-- A context in use has no map, or one that agrees with its path. -/
theorem cases_of_used (hs : Agrees s ps st) {ctx : Ctx} (hctx : s.ctxs[c]? = some ctx)
    (hused : st[c]? ≠ some .spent) :
    (st[c]? = some .bare ∧ ctx = ⟨none⟩ ∧ ps[c]? = some .empty) ∨
      ∃ r < s.heap.next, st[c]? = some .live ∧ ctx = ⟨some (some r)⟩ ∧
        ps[c]? = some (s.heap.read r) := by
  have hlt := (List.getElem?_eq_some_iff.1 hctx).1
  rw [hs.ctxs_length] at hlt
  rcases hst : st[c]? with _ | ⟨_ | _ | _⟩
  · have := List.getElem?_eq_none_iff.1 hst
    omega
  · obtain ⟨hbare, hpath⟩ := hs.bare c hst
    rw [hctx] at hbare
    exact Or.inl ⟨rfl, Option.some.inj hbare, hpath⟩
  · obtain ⟨r, hr, hlive, hpath⟩ := hs.live c hst
    rw [hctx] at hlive
    exact Or.inr ⟨r, hr, rfl, Option.some.inj hlive, hpath⟩
  · exact absurd hst hused

/-- A context that was never made is on no path. -/
theorem path_eq_none (hs : Agrees s ps st) (hctx : s.ctxs[c]? = none) :
    ps[c]? = none ∧ st.length ≤ c := by
  have hle := List.getElem?_eq_none_iff.1 hctx
  have h1 := hs.ctxs_length
  have h2 := hs.paths_length
  exact ⟨List.getElem?_eq_none (by omega), by omega⟩

end Agrees

/-- `AddToPropagateCtx`: the parent is spent if the child shares its
map. -/
theorem agrees_add {key : GoString} {val : GoValue} (hs : Agrees s ps st)
    (hused : st[c]? ≠ some .spent) :
    Agrees (step s (.add c key val)) (extendPaths ps (.add c key val))
      (extendStatus st (.add c key val)) := by
  rcases hctx : s.ctxs[c]? with _ | ctx
  · obtain ⟨hpath, hlen⟩ := hs.path_eq_none hctx
    simpa [step, extendPaths, extendStatus, hctx, hpath, Nat.not_lt.2 hlen] using hs
  · have hlt : c < st.length := hs.ctxs_length ▸ (List.getElem?_eq_some_iff.1 hctx).1
    rcases hs.cases_of_used hctx hused with ⟨hst, rfl, hpath⟩ | ⟨r, hr, hst, rfl, hpath⟩
    · have h := (hs.alloc (GoMap.empty.set key val)).snoc_live (Nat.lt_succ_self _)
        fun c hc => hs.ne_next hc
      simpa [step, extendPaths, extendStatus, hctx, hpath, hlt, spend_of_bare hst] using h
    · -- only the child is left to use the map
      have hfree : ∀ d : ℕ, (spend st c)[d]? = some .live →
          s.ctxs[d]? ≠ some ⟨some (some r)⟩ := by
        intro d hd hdr
        obtain ⟨hd, hne⟩ := spend_eq_live_iff.1 hd
        exact hne (hs.apart d c r hd hst hdr hctx)
      have h := (hs.write hst hctx ((s.heap.read r).set key val)).snoc_live hr hfree
      simpa [step, extendPaths, extendStatus, hctx, hpath, hlt] using h

/-- `GetFromPropagateCtx`: what is read is on the path. -/
theorem agrees_get {key : GoString} (hs : Agrees s ps st) (hused : st[c]? ≠ some .spent) :
    Agrees (step s (.get c key)) (extendPaths ps (.get c key)) (extendStatus st (.get c key)) := by
  rcases hctx : s.ctxs[c]? with _ | ctx
  · simpa [step, extendPaths, extendStatus, hctx] using hs
  · rcases hs.cases_of_used hctx hused with ⟨-, rfl, hpath⟩ | ⟨r, -, -, rfl, hpath⟩
    · simpa [step, extendPaths, extendStatus, hctx] using
        hs.see (o := .read c key .nil) ⟨_, hpath, by simp⟩
    · simpa [step, extendPaths, extendStatus, hctx] using
        hs.see (o := .read c key (index (s.heap.read r) key)) ⟨_, hpath, rfl⟩

/-- `Call`: the stamps go into a new map, or into the context's own, which
is spent. -/
theorem agrees_call (hs : Agrees s ps st) (hused : st[c]? ≠ some .spent) :
    Agrees (step s (.call c env)) (extendPaths ps (.call c env))
      (extendStatus st (.call c env)) := by
  rcases hctx : s.ctxs[c]? with _ | ctx
  · obtain ⟨-, hlen⟩ := hs.path_eq_none hctx
    have hspend : spend st c = st := by simp [spend, List.getElem?_eq_none hlen]
    simpa [step, extendPaths, extendStatus, hctx, hspend] using hs
  · by_cases hrun : env.running = true
    · rcases hs.cases_of_used hctx hused with ⟨hst, rfl, hpath⟩ | ⟨r, hr, hst, rfl, hpath⟩
      · have h := hs.alloc (leaves .empty env)
        rcases hinject : env.inject with e | carrier
        · simpa [step, extendPaths, extendStatus, hctx, hrun, spend_of_bare hst, call_bare hrun,
            hinject, Except.toOption] using h
        · have hsent : leaves .empty env = stamp .empty env := by simp [leaves, hinject]
          simpa [step, extendPaths, extendStatus, hctx, hrun, spend_of_bare hst, call_bare hrun,
            hinject, Except.toOption, hsent] using
            h.see (o := .sent c env (leaves .empty env)) ⟨_, hpath, hsent⟩
      · have h := hs.write hst hctx (leaves (s.heap.read r) env)
        rcases hinject : env.inject with e | carrier
        · simpa [step, extendPaths, extendStatus, hctx, hrun, call_map hrun, hinject,
            Except.toOption] using h
        · have hsent : leaves (s.heap.read r) env = stamp (s.heap.read r) env := by
            simp [leaves, hinject]
          simpa [step, extendPaths, extendStatus, hctx, hrun, call_map hrun, hinject,
            Except.toOption, hsent] using
            h.see (o := .sent c env (leaves (s.heap.read r) env)) ⟨_, hpath, hsent⟩
    · simpa [step, extendPaths, extendStatus, hctx, hrun, call_idle] using hs

/-- **A step of a linear program keeps the two readings together.** -/
theorem agrees_step (hs : Agrees s ps st) (op : Op)
    (hused : ∀ c ∈ op.uses, st[c]? ≠ some .spent) :
    Agrees (step s op) (extendPaths ps op) (extendStatus st op) := by
  cases op with
  | background => exact hs.snoc_bare
  | fromMap m =>
    have h := (hs.alloc m).snoc_live (Nat.lt_succ_self _) fun c hc => hs.ne_next hc
    simpa [step, extendPaths, extendStatus, Context.fromMap] using h
  | add c key val => exact agrees_add hs (hused c rfl)
  | get c key => exact agrees_get hs (hused c rfl)
  | call c env => exact agrees_call hs (hused c rfl)

/-! ## Whole programs -/

theorem agrees_foldl {prog : List Op} (hs : Agrees s ps st) (hlin : LinearFrom st prog) :
    Agrees (prog.foldl step s) (prog.foldl extendPaths ps) (prog.foldl extendStatus st) := by
  induction prog generalizing s ps st with
  | nil => exact hs
  | cons op prog ih =>
    obtain ⟨hused, hrest⟩ := hlin
    exact ih (agrees_step hs op hused) hrest

/-! ## The stamps of a call -/

/-- The stamps of `buildRequest` are kept under keys of their own. -/
theorem index_stamp {k : GoString} (h₁ : k ≠ spanPropagateCtxKey) (h₂ : k ≠ peerIDKey)
    (h₃ : k ≠ peerServiceKey) : index (stamp m env) k = index (stampOwn m env) k := by
  unfold stamp
  rw [index_set_of_ne h₃, index_set_of_ne h₂, index_set_of_ne h₁]

/-- A value, or a string in the place of nil. -/
def orString (val : GoString) : GoValue → GoValue
  | .nil => .string val
  | v => v

theorem index_setIfNil {key val : GoString} :
    index (setIfNil m key val) key = orString val (index m key) := by
  unfold setIfNil
  split
  · rename_i hnil
    rw [hnil, index_set_self]
    rfl
  · rename_i hnil
    unfold orString
    split
    · rename_i heq
      exact absurd heq hnil
    · rfl

theorem index_setIfNil_of_ne {key val k : GoString} (hne : k ≠ key) :
    index (setIfNil m key val) k = index m k := by
  unfold setIfNil
  split
  · exact index_set_of_ne hne
  · rfl

theorem index_setRequestID_of_ne {nuid k : GoString} (hne : k ≠ requestIDKey) :
    index (setRequestID m nuid) k = index m k := by
  unfold setRequestID
  split
  · exact index_set_of_ne hne
  · exact index_set_of_ne hne
  · rfl

theorem index_stamp_requestTimeout :
    index (stamp m env) requestTimeout = orString env.reqTimeout (index m requestTimeout) := by
  rw [index_stamp (by decide) (by decide) (by decide), stampOwn, index_setIfNil_of_ne (by decide),
    index_setIfNil, index_setRequestID_of_ne (by decide), index_set_of_ne (by decide)]

theorem index_stamp_startTimeKey :
    index (stamp m env) startTimeKey = orString (formatInt env.now) (index m startTimeKey) := by
  rw [index_stamp (by decide) (by decide) (by decide), stampOwn, index_setIfNil,
    index_setIfNil_of_ne (by decide), index_setRequestID_of_ne (by decide),
    index_set_of_ne (by decide)]

/-- A call from a context without a start time is stamped with its own. -/
theorem index_stamp_startTime (hm : index m startTimeKey = .nil) :
    index (stamp m env) startTimeKey = .string (formatInt env.now) := by
  rw [index_stamp_startTimeKey, hm]
  rfl

/-- A call from a context without a request id is stamped with its own. -/
theorem index_stamp_requestID (hm : index m requestIDKey = .nil) :
    index (stamp m env) requestIDKey = .string env.nuid := by
  have hroute : index (m.set routeKey (.string env.route)) requestIDKey = .nil := by
    rw [index_set_of_ne (by decide), hm]
  rw [index_stamp (by decide) (by decide) (by decide), stampOwn,
    index_setIfNil_of_ne (by decide), index_setIfNil_of_ne (by decide)]
  simp [setRequestID, hroute]

/-- **Contexts are not corrupted by use in a linear program.** Every read
returns what the derivation path of its context says, every request is sent
with the values of its context's path and the stamps of its own call, and a
call from a context without start time and request id carries its own. -/
theorem faithful_of_linear (prog : List Op) (hlin : Linear prog) :
    (∀ o ∈ (run prog).obs, o.Faithful (paths prog)) ∧
    ∀ c env metadata m, .sent c env metadata ∈ (run prog).obs → (paths prog)[c]? = some m →
      (index m startTimeKey = .nil →
        index metadata startTimeKey = .string (formatInt env.now)) ∧
      (index m requestIDKey = .nil → index metadata requestIDKey = .string env.nuid) := by
  have hagrees := agrees_foldl agrees_init hlin
  refine ⟨hagrees.faithful, ?_⟩
  intro c env metadata m hsent hm
  obtain ⟨m', hm', rfl⟩ := hagrees.faithful _ hsent
  obtain rfl : m' = m := by
    have hm' : (paths prog)[c]? = some m' := hm'
    rw [hm] at hm'
    exact (Option.some.inj hm').symm
  exact ⟨index_stamp_startTime, index_stamp_requestID⟩

/-! ## Two programs -/

/-- A call made at a given time under a given id. -/
def callAt (now : ℤ) (nuid : GoString) : CallEnv :=
  { running := true, route := lit "room.room.join", nuid := nuid, reqTimeout := lit "5s",
    now := now, inject := .ok [], serverID := lit "connector-1", serverType := lit "connector" }

/-- Two calls on the background context, a derived context read and then
used for one call. -/
theorem faithful_of_linear_background :
    let prog : List Op := [.background, .call 0 (callAt 1 (lit "a")), .call 0 (callAt 2 (lit "b")),
      .add 0 (lit "uid") (.string (lit "u")), .get 1 (lit "uid"), .call 1 (callAt 3 (lit "c"))]
    Linear prog ∧ (run prog).obs.length = 4 ∧ ∀ o ∈ (run prog).obs, o.Faithful (paths prog) := by
  intro prog
  have hlin : Linear prog := by decide
  exact ⟨hlin, rfl, (faithful_of_linear prog hlin).1⟩

/-- **Two calls on one derived context.** Its path has no start time and no
request id, yet the second call is sent with the start time and the id of
the first. -/
theorem second_call_restamped :
    let prog : List Op := [.background, .add 0 (lit "uid") (.string (lit "u")),
      .call 1 (callAt 1 (lit "a")), .call 1 (callAt 2 (lit "b"))]
    ∃ metadata, Obs.sent 1 (callAt 2 (lit "b")) metadata ∈ (run prog).obs ∧
      index metadata startTimeKey = .string (formatInt 1) ∧
      index metadata requestIDKey = .string (lit "a") ∧
      ¬ (Obs.sent 1 (callAt 2 (lit "b")) metadata).Faithful (paths prog) := by
  intro prog
  refine ⟨_, List.mem_of_getElem? (i := 1) rfl, rfl, rfl, ?_⟩
  rintro ⟨m, hm, hstamp⟩
  obtain rfl := Option.some.inj hm
  have hstart := @index_stamp_startTime (callAt 2 (lit "b"))
    (GoMap.empty.set (lit "uid") (.string (lit "u"))) rfl
  rw [← hstamp] at hstart
  exact absurd (GoValue.string.inj hstart) (by decide)

end Client

end Nrpc
