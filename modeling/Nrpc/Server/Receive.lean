import Nrpc.Server.Model.Receive
/-!
# What the receiver survives

Two things end the process. The reply is written into the message of the
request without a look at whether there is one, so a payload that
unmarshals to a request without message is a nil dereference
(`payloads_survived_iff`). And the deferred block closes `subChan` behind a
`Drain` that has only begun: what the client has received and not delivered
by then, and what it receives until the draining has completed, is sent on a
closed channel (`sent_on_closed_iff`).
-/

namespace Nrpc

namespace Server

namespace Receive

variable {unmarshal : Unmarshal} {messagesBufferSize : ℕ} {s s' : State} {a : Action}

/-- What a step can do. -/
inductive Steps (unmarshal : Unmarshal) (s : State) : Action → State → Prop
  | arrive (msg : NatsMsg) (h : s.unsubscribed = false) :
    Steps unmarshal s (.arrive msg) { s with pending := s.pending ++ [msg] }
  | unsubscribe : Steps unmarshal s .unsubscribe { s with pending := [], unsubscribed := true }
  | sentOnClosed (msg : NatsMsg) (rest : List NatsMsg) (hpending : s.pending = msg :: rest)
    (h : s.subClosed = true) :
    Steps unmarshal s .deliver { s with pending := rest, crashed := true }
  | delivered (msg : NatsMsg) (rest subChan : List NatsMsg) (hpending : s.pending = msg :: rest)
    (h : s.subClosed = false) :
    Steps unmarshal s .deliver { s with pending := rest, subChan := subChan }
  | receive (msg : NatsMsg) (rest : List NatsMsg) (hreceiver : s.receiver = .selecting)
    (h : s.subChan = msg :: rest) :
    Steps unmarshal s .receive
      { s with receiver := behind unmarshal msg, subChan := rest, received := s.received ++ [msg] }
  | handOver (req : Request) (h : s.receiver = .sending req) :
    Steps unmarshal s .handOver { s with receiver := .selecting, enqueued := s.enqueued ++ [req] }
  | stop (hreceiver : s.receiver = .selecting) (h : s.stopped = true) :
    Steps unmarshal s .stop { s with receiver := .draining false }
  | shutdown (h : s.stopped = false) : Steps unmarshal s .shutdown { s with stopped := true }
  | drain (panicking : Bool) (h : s.receiver = .draining panicking) :
    Steps unmarshal s .deferred { s with receiver := .closingRequests panicking }
  | closeRequests (panicking : Bool) (h : s.receiver = .closingRequests panicking) :
    Steps unmarshal s .deferred { s with receiver := .closingMessages panicking }
  | closeMessages (panicking : Bool) (h : s.receiver = .closingMessages panicking) :
    Steps unmarshal s .deferred { s with receiver := .ended panicking, subClosed := true }

theorem steps_of_eq (h : (machine unmarshal messagesBufferSize).step s a = some s') :
    s.crashed = false ∧ Steps unmarshal s a s' := by
  simp only [machine, step] at h
  split at h
  · cases h
  rename_i hcrashed
  refine ⟨by simpa using hcrashed, ?_⟩
  cases a with
  | arrive msg =>
    dsimp only at h
    split at h
    · cases h
    · rename_i hover
      obtain rfl := Option.some.inj h
      exact .arrive msg (by simpa using hover)
  | unsubscribe =>
    obtain rfl := Option.some.inj h
    exact .unsubscribe
  | deliver =>
    dsimp only at h
    split at h
    · cases h
    · rename_i msg rest hpending
      split at h
      · rename_i hclosed
        obtain rfl := Option.some.inj h
        exact .sentOnClosed msg rest hpending hclosed
      · rename_i hclosed
        split at h
        · obtain rfl := Option.some.inj h
          exact .delivered msg rest _ hpending (by simpa using hclosed)
        · obtain rfl := Option.some.inj h
          exact .delivered msg rest s.subChan hpending (by simpa using hclosed)
  | receive =>
    dsimp only at h
    split at h
    · rename_i msg rest hreceiver hsub
      obtain rfl := Option.some.inj h
      exact .receive msg rest hreceiver hsub
    · cases h
  | handOver =>
    dsimp only at h
    split at h
    · rename_i req hreceiver
      obtain rfl := Option.some.inj h
      exact .handOver req hreceiver
    · cases h
  | stop =>
    dsimp only at h
    split at h
    · rename_i hstop
      obtain rfl := Option.some.inj h
      exact .stop hstop.1 hstop.2
    · cases h
  | shutdown =>
    dsimp only at h
    split at h
    · cases h
    · rename_i hstopped
      obtain rfl := Option.some.inj h
      exact .shutdown (by simpa using hstopped)
  | deferred =>
    dsimp only at h
    split at h
    · rename_i panicking hreceiver
      obtain rfl := Option.some.inj h
      exact .drain panicking hreceiver
    · rename_i panicking hreceiver
      obtain rfl := Option.some.inj h
      exact .closeRequests panicking hreceiver
    · rename_i panicking hreceiver
      obtain rfl := Option.some.inj h
      exact .closeMessages panicking hreceiver
    · cases h

/-! ## The subscription and the closed channel -/

/-- `subChan` is closed last, and only then can a delivery fail. -/
structure ClosedLast (s : State) : Prop where
  closed : s.subClosed = true → ∃ panicking, s.receiver = .ended panicking
  crashed : s.crashed = true → s.subClosed = true

theorem closedLast_start : ClosedLast .start where
  closed := fun h => by cases h
  crashed := fun h => by cases h

theorem closedLast_step (hs : ClosedLast s)
    (hstep : (machine unmarshal messagesBufferSize).step s a = some s') : ClosedLast s' := by
  -- while the receiver moves nothing is closed yet
  have hopen : ∀ {pc pc'}, s.receiver = pc → (∀ panicking, pc ≠ .ended panicking) →
      s.subClosed = true → ∃ panicking, pc' = Pc.ended panicking := by
    intro pc pc' hpc hne hclosed
    obtain ⟨panicking, hended⟩ := hs.closed hclosed
    exact absurd (hpc.symm.trans hended) (hne panicking)
  cases (steps_of_eq hstep).2 with
  | arrive msg h => exact ⟨hs.closed, hs.crashed⟩
  | unsubscribe => exact ⟨hs.closed, hs.crashed⟩
  | sentOnClosed msg rest hpending h => exact ⟨hs.closed, fun _ => h⟩
  | delivered msg rest subChan hpending h => exact ⟨hs.closed, hs.crashed⟩
  | receive msg rest hreceiver h => exact ⟨hopen hreceiver (by simp), hs.crashed⟩
  | handOver req h => exact ⟨hopen h (by simp), hs.crashed⟩
  | stop hreceiver h => exact ⟨hopen hreceiver (by simp), hs.crashed⟩
  | shutdown h => exact ⟨hs.closed, hs.crashed⟩
  | drain panicking h => exact ⟨hopen h (by simp), hs.crashed⟩
  | closeRequests panicking h => exact ⟨hopen h (by simp), hs.crashed⟩
  | closeMessages panicking h => exact ⟨fun _ => ⟨panicking, rfl⟩, fun _ => rfl⟩

/-- The subscription is over, and what was left of it is gone. -/
structure Over (s : State) : Prop where
  unsubscribed : s.unsubscribed = true
  pending : s.pending = []

/-- A subscription that is over has nothing to deliver. -/
theorem over_step (hs : s.unsubscribed = true → Over s)
    (hstep : (machine unmarshal messagesBufferSize).step s a = some s') :
    s'.unsubscribed = true → Over s' := by
  intro hover
  cases (steps_of_eq hstep).2 with
  | arrive msg h =>
    rw [show s.unsubscribed = true from hover] at h
    cases h
  | unsubscribe => exact ⟨rfl, rfl⟩
  | sentOnClosed msg rest hpending h =>
    rw [(hs hover).pending] at hpending
    cases hpending
  | delivered msg rest subChan hpending h =>
    rw [(hs hover).pending] at hpending
    cases hpending
  | _ => exact ⟨hover, (hs hover).pending⟩

/-- Behind the end of the subscription nothing is delivered any more. -/
theorem nothing_delivered (hs : Over s ∧ s.crashed = false)
    (hstep : (machine unmarshal messagesBufferSize).step s a = some s') :
    Over s' ∧ s'.crashed = false := by
  have hover : s'.unsubscribed = true := by
    cases (steps_of_eq hstep).2 with
    | unsubscribe => rfl
    | _ => exact hs.1.unsubscribed
  refine ⟨over_step (fun _ => hs.1) hstep hover, ?_⟩
  cases (steps_of_eq hstep).2 with
  | sentOnClosed msg rest hpending h =>
    rw [hs.1.pending] at hpending
    cases hpending
  | _ => exact hs.2

/-- **When a delivery is a send on a closed channel.** None is as long as
`subChan` is open; and from the moment in which it is about to be closed,
no delivery ever is if and only if the subscription is over by then. -/
theorem sent_on_closed_iff (unmarshal : Unmarshal) (messagesBufferSize : ℕ) (acts : List Action)
    (s : State) (hrun : (machine unmarshal messagesBufferSize).run .start acts = some s) :
    (s.subClosed = false → s.crashed = false) ∧
    ∀ panicking, s.receiver = .closingMessages panicking →
      ((∀ acts' s', (machine unmarshal messagesBufferSize).run s acts' = some s' →
        s'.crashed = false) ↔ s.unsubscribed = true) := by
  have hs : ClosedLast s :=
    Machine.run_invariant_of_step (fun _ _ _ hs h => closedLast_step hs h) closedLast_start hrun
  have hover : s.unsubscribed = true → Over s :=
    Machine.run_invariant_of_step (I := fun s => s.unsubscribed = true → Over s)
      (fun _ _ _ hs h => over_step hs h) (fun h => by cases h) hrun
  have hopen : s.subClosed = false → s.crashed = false := by
    intro hclosed
    by_contra hcrashed
    rw [hs.crashed (by simpa using hcrashed)] at hclosed
    cases hclosed
  refine ⟨hopen, ?_⟩
  intro panicking hreceiver
  have hclosed : s.subClosed = false := by
    by_contra h
    obtain ⟨p, hended⟩ := hs.closed (by simpa using h)
    rw [hreceiver] at hended
    cases hended
  have hcrashed := hopen hclosed
  constructor
  · intro hnever
    by_contra hsubscribed
    -- the channel is closed, a message arrives, and the first one there is delivered
    have hlater : (machine unmarshal messagesBufferSize).run s
        [.deferred, .arrive ⟨[], []⟩, .deliver] = some
          { s with
            receiver := .ended panicking
            subClosed := true
            pending := (s.pending ++ [(⟨[], []⟩ : NatsMsg)]).tail
            crashed := true } := by
      rcases hpending : s.pending with _ | ⟨msg, rest⟩ <;>
        simp [Machine.run, machine, step, hcrashed, hreceiver, hsubscribed, hpending]
    have hcrash := hnever _ _ hlater
    cases hcrash
  · intro hunsubscribed acts' s' hrun'
    exact (Machine.run_invariant_of_step (I := fun s => Over s ∧ s.crashed = false)
      (fun _ _ _ hs h => nothing_delivered hs h) ⟨hover hunsubscribed, hcrashed⟩ hrun').2

/-- `proto.Unmarshal` on payloads that are no requests but for the empty one,
which is the request without message. -/
def emptyOnly : Unmarshal := fun data =>
  if data = [] then .ok ⟨none, []⟩ else .error (lit "proto: cannot parse invalid wire-format data")

/-- A message that cannot be unmarshalled. -/
def oneByte : NatsMsg := ⟨[0xFF], lit "_INBOX.1"⟩

/-- The draining completes before the channels are closed. -/
theorem sent_on_closed_iff_drained :
    let acts : List Action :=
      [.arrive oneByte, .shutdown, .stop, .deferred, .deliver, .unsubscribe, .deferred]
    ∃ s, (machine emptyOnly 1).run .start acts = some s ∧
      ∀ acts' s', (machine emptyOnly 1).run s acts' = some s' → s'.crashed = false := by
  intro acts
  exact ⟨_, rfl, ((sent_on_closed_iff emptyOnly 1 acts _ rfl).2 false rfl).2 rfl⟩

/-- **A message is pending when the server shuts down**: the loop takes
`stopChan`, drains, closes both channels, and the client delivers into the
closed one. So it does with a message that arrives behind the close. -/
theorem pending_sent_on_closed :
    (∃ s, (machine emptyOnly 1).run .start
        [.arrive oneByte, .shutdown, .stop, .deferred, .deferred, .deferred, .deliver] = some s ∧
      s.subClosed = true ∧ s.crashed = true) ∧
    ∃ s, (machine emptyOnly 1).run .start
        [.shutdown, .stop, .deferred, .deferred, .deferred, .arrive oneByte, .deliver] = some s ∧
      s.subClosed = true ∧ s.crashed = true :=
  ⟨⟨_, rfl, rfl, rfl⟩, _, rfl, rfl, rfl⟩

/-! ## Payloads -/

/-- The request the receiver has in hand. -/
def Pc.inHand : Pc → List Request
  | .sending req => [req]
  | _ => []

/-- The receiver has panicked. -/
def Pc.panicking : Pc → Bool
  | .draining panicking => panicking
  | .closingRequests panicking => panicking
  | .closingMessages panicking => panicking
  | .ended panicking => panicking
  | _ => false

/-- **One iteration**: the message is skipped because it cannot be
unmarshalled, or a request is sent on whose message replies to the
message's reply subject. -/
def Iteration (unmarshal : Unmarshal) (msg : NatsMsg) : Option Request → Prop
  | none => ∃ e, unmarshal msg.data = .error e
  | some req => ∃ req' m, unmarshal msg.data = .ok req' ∧ req'.msg = some m ∧
      req = { req' with msg := some { m with reply := msg.reply } }

/-- **The loop has survived**: there was no nil dereference, and the
requests sent on are those of the iterations, in order. -/
def Survived (unmarshal : Unmarshal) (s : State) : Prop :=
  s.receiver.panicking = false ∧ ∃ outs, List.Forall₂ (Iteration unmarshal) s.received outs ∧
    s.enqueued ++ s.receiver.inHand = outs.filterMap id

/-- A payload that is no request, or a request with a message. -/
def HasMsg (unmarshal : Unmarshal) (msg : NatsMsg) : Prop :=
  ∀ req, unmarshal msg.data = .ok req → req.msg.isSome

theorem Iteration.hasMsg {msg : NatsMsg} {out : Option Request}
    (h : Iteration unmarshal msg out) : HasMsg unmarshal msg := by
  intro req hreq
  cases out with
  | none =>
    obtain ⟨e, he⟩ := h
    rw [hreq] at he
    cases he
  | some req₁ =>
    obtain ⟨req', m, hreq', hm, -⟩ := h
    rw [hreq] at hreq'
    obtain rfl := Except.ok.inj hreq'
    rw [hm]
    rfl

theorem hasMsg_of_iterations {msgs : List NatsMsg} {outs : List (Option Request)}
    (h : List.Forall₂ (Iteration unmarshal) msgs outs) : ∀ msg ∈ msgs, HasMsg unmarshal msg := by
  induction h with
  | nil => exact fun msg hmem => (by cases hmem)
  | cons hout _ ih =>
    intro msg hmem
    rcases List.mem_cons.1 hmem with rfl | hmem
    · exact hout.hasMsg
    · exact ih msg hmem

/-- The loop has survived, or has dereferenced the message of a request
that has none. -/
def SurvivedOrNil (unmarshal : Unmarshal) (s : State) : Prop :=
  Survived unmarshal s ∨
    s.receiver.panicking = true ∧ ∃ msg ∈ s.received, ¬ HasMsg unmarshal msg

/-- Steps that do not concern the requests. -/
theorem SurvivedOrNil.congr (hs : SurvivedOrNil unmarshal s) (hreceived : s'.received = s.received)
    (henqueued : s'.enqueued = s.enqueued) (hinHand : s'.receiver.inHand = s.receiver.inHand)
    (hpanicking : s'.receiver.panicking = s.receiver.panicking) : SurvivedOrNil unmarshal s' := by
  unfold SurvivedOrNil Survived
  rw [hreceived, henqueued, hinHand, hpanicking]
  exact hs

/-- **One message** is skipped, sent on, or its missing message is
dereferenced. -/
theorem behind_cases (unmarshal : Unmarshal) (msg : NatsMsg) :
    (behind unmarshal msg = .selecting ∧ Iteration unmarshal msg none) ∨
    (∃ req, behind unmarshal msg = .sending req ∧ Iteration unmarshal msg (some req)) ∨
    (behind unmarshal msg = .draining true ∧ ¬ HasMsg unmarshal msg) := by
  unfold behind handle
  rcases hun : unmarshal msg.data with e | req
  · exact Or.inl ⟨rfl, e, hun⟩
  · rcases hmsg : req.msg with _ | m
    · refine Or.inr (Or.inr ⟨by simp only [hmsg], fun h => ?_⟩)
      have hsome := h req hun
      rw [hmsg] at hsome
      cases hsome
    · exact Or.inr (Or.inl ⟨_, by simp only [hmsg], req, m, hun, hmsg, rfl⟩)

theorem survivedOrNil_start : SurvivedOrNil unmarshal .start :=
  Or.inl ⟨rfl, [], .nil, rfl⟩

theorem survivedOrNil_step (hs : SurvivedOrNil unmarshal s)
    (hstep : (machine unmarshal messagesBufferSize).step s a = some s') :
    SurvivedOrNil unmarshal s' := by
  cases (steps_of_eq hstep).2 with
  | receive msg rest hreceiver h =>
    -- in the select it has not panicked
    rcases hs with ⟨-, outs, houts, henqueued⟩ | ⟨hpanicking, -⟩
    · rw [hreceiver] at henqueued
      rcases behind_cases unmarshal msg with
        ⟨hbehind, hout⟩ | ⟨req, hbehind, hout⟩ | ⟨hbehind, hnil⟩
      · refine Or.inl ⟨by rw [hbehind]; rfl, outs ++ [none], ?_, ?_⟩
        · exact List.rel_append houts (.cons hout .nil)
        · rw [hbehind]
          simpa using henqueued
      · refine Or.inl ⟨by rw [hbehind]; rfl, outs ++ [some req], ?_, ?_⟩
        · exact List.rel_append houts (.cons hout .nil)
        · rw [hbehind]
          simpa [Pc.inHand] using henqueued
      · exact Or.inr ⟨by rw [hbehind]; rfl, msg, by simp, hnil⟩
    · rw [hreceiver] at hpanicking
      cases hpanicking
  | handOver req h =>
    rcases hs with ⟨-, outs, houts, henqueued⟩ | ⟨hpanicking, -⟩
    · rw [h] at henqueued
      exact Or.inl ⟨rfl, outs, houts, by simpa [Pc.inHand] using henqueued⟩
    · rw [h] at hpanicking
      cases hpanicking
  | stop hreceiver h => exact hs.congr rfl rfl (by rw [hreceiver]; rfl) (by rw [hreceiver]; rfl)
  | drain panicking h => exact hs.congr rfl rfl (by rw [h]; rfl) (by rw [h]; rfl)
  | closeRequests panicking h => exact hs.congr rfl rfl (by rw [h]; rfl) (by rw [h]; rfl)
  | closeMessages panicking h => exact hs.congr rfl rfl (by rw [h]; rfl) (by rw [h]; rfl)
  | _ => exact hs.congr rfl rfl rfl rfl

/-- **A run survives exactly the payloads that have a message** whenever
they are requests. -/
theorem survived_iff {acts : List Action}
    (hrun : (machine unmarshal messagesBufferSize).run .start acts = some s) :
    Survived unmarshal s ↔ ∀ msg ∈ s.received, HasMsg unmarshal msg := by
  refine ⟨?_, fun hmsgs => ?_⟩
  · rintro ⟨-, outs, houts, -⟩
    exact hasMsg_of_iterations houts
  have hs : SurvivedOrNil unmarshal s := Machine.run_invariant_of_step
    (fun _ _ _ hs h => survivedOrNil_step hs h) survivedOrNil_start hrun
  rcases hs with hs | ⟨-, msg, hmem, hnil⟩
  · exact hs
  · exact absurd (hmsgs msg hmem) hnil

/-- The loop waits for a message, and nothing is under way. -/
structure Ready (s : State) : Prop where
  receiver : s.receiver = .selecting
  subChan : s.subChan = []
  subClosed : s.subClosed = false
  pending : s.pending = []
  unsubscribed : s.unsubscribed = false
  crashed : s.crashed = false

/-- **One message goes through**: it is received, delivered, taken, and its
request handed over if it has one. -/
theorem Ready.exists_run_one {msg : NatsMsg} (hs : Ready s) (hsize : 0 < messagesBufferSize)
    (hmsg : HasMsg unmarshal msg) :
    ∃ acts s', (machine unmarshal messagesBufferSize).run s acts = some s' ∧ Ready s' ∧
      s'.received = s.received ++ [msg] := by
  have htaken : (machine unmarshal messagesBufferSize).run s [.arrive msg, .deliver, .receive] =
      some { s with receiver := behind unmarshal msg, received := s.received ++ [msg] } := by
    simp [Machine.run, machine, step, hs.receiver, hs.subChan, hs.subClosed, hs.pending,
      hs.unsubscribed, hs.crashed, hsize]
  rcases behind_cases unmarshal msg with ⟨hbehind, -⟩ | ⟨req, hbehind, -⟩ | ⟨-, hnil⟩
  · refine ⟨_, _, htaken, ?_, rfl⟩
    exact ⟨hbehind, hs.subChan, hs.subClosed, hs.pending, hs.unsubscribed, hs.crashed⟩
  · rw [hbehind] at htaken
    refine ⟨[.arrive msg, .deliver, .receive] ++ [.handOver],
      { s with received := s.received ++ [msg], enqueued := s.enqueued ++ [req] }, ?_, ?_, rfl⟩
    · rw [Machine.run_append, htaken]
      simp [Machine.run, machine, step, hs.crashed, hs.receiver]
    · exact ⟨hs.receiver, hs.subChan, hs.subClosed, hs.pending, hs.unsubscribed, hs.crashed⟩
  · exact absurd hmsg hnil

/-- **A sequence of messages goes through.** -/
theorem Ready.exists_run {msgs : List NatsMsg} (hs : Ready s) (hsize : 0 < messagesBufferSize)
    (hmsgs : ∀ msg ∈ msgs, HasMsg unmarshal msg) :
    ∃ acts s', (machine unmarshal messagesBufferSize).run s acts = some s' ∧ Ready s' ∧
      s'.received = s.received ++ msgs := by
  induction msgs generalizing s with
  | nil => exact ⟨[], s, rfl, hs, by simp⟩
  | cons msg msgs ih =>
    obtain ⟨acts, mid, hrun, hmid, hreceived⟩ :=
      hs.exists_run_one hsize (hmsgs msg List.mem_cons_self)
    obtain ⟨acts', s', hrun', hs', hreceived'⟩ :=
      ih hmid fun m hm => hmsgs m (List.mem_cons_of_mem _ hm)
    refine ⟨acts ++ acts', s', ?_, hs', ?_⟩
    · rw [Machine.run_append, hrun]
      exact hrun'
    · rw [hreceived', hreceived, List.append_assoc]
      rfl

/-- **Which payloads the loop survives.** For every sequence of messages the
loop can get past all of them to wait for the next, if and only if each one
that unmarshals has a message in its request; and every run that has
received them has skipped or sent on each in turn, without a nil
dereference, if and only if the same holds. -/
theorem payloads_survived_iff (unmarshal : Unmarshal) (messagesBufferSize : ℕ)
    (hsize : 0 < messagesBufferSize) (msgs : List NatsMsg) :
    ((∃ acts s, (machine unmarshal messagesBufferSize).run .start acts = some s ∧
      s.received = msgs ∧ s.receiver = .selecting) ↔
      ∀ msg ∈ msgs, ∀ req, unmarshal msg.data = .ok req → req.msg.isSome) ∧
    ∀ acts s, (machine unmarshal messagesBufferSize).run .start acts = some s →
      s.received = msgs → (Survived unmarshal s ↔
        ∀ msg ∈ msgs, ∀ req, unmarshal msg.data = .ok req → req.msg.isSome) := by
  refine ⟨⟨?_, ?_⟩, ?_⟩
  · rintro ⟨acts, s, hrun, rfl, hreceiver⟩
    have hs : SurvivedOrNil unmarshal s := Machine.run_invariant_of_step
      (fun _ _ _ hs h => survivedOrNil_step hs h) survivedOrNil_start hrun
    rcases hs with hs | ⟨hpanicking, -⟩
    · exact (survived_iff hrun).1 hs
    · rw [hreceiver] at hpanicking
      cases hpanicking
  · intro hmsgs
    have hstart : Ready .start := ⟨rfl, rfl, rfl, rfl, rfl, rfl⟩
    obtain ⟨acts, s, hrun, hs, hreceived⟩ := hstart.exists_run hsize hmsgs
    exact ⟨acts, s, hrun, by simpa [State.start] using hreceived, hs.receiver⟩
  · rintro acts s hrun rfl
    exact survived_iff hrun

/-- A request for the id 1, on the wire. -/
def firstRequest : NatsMsg := ⟨[0x0a, 0x02, 0x08, 0x01], lit "_INBOX.2"⟩

/-- `proto.Unmarshal` on that request, and on payloads that are none. -/
def firstOnly : Unmarshal := fun data =>
  if data = firstRequest.data then .ok ⟨some ⟨1, [], [], [], .msgNotify⟩, []⟩
  else emptyOnly data

/-- A payload that is no request is skipped, and a request is sent on. -/
theorem payloads_survived_iff_skipped :
    (∃ acts s, (machine firstOnly 1).run .start acts = some s ∧
      s.received = [oneByte, firstRequest] ∧ s.receiver = .selecting) ∧
    ∀ acts s, (machine firstOnly 1).run .start acts = some s →
      s.received = [oneByte, firstRequest] → Survived firstOnly s := by
  have hmsgs : ∀ msg ∈ [oneByte, firstRequest], ∀ req, firstOnly msg.data = .ok req →
      req.msg.isSome := by
    have hfails : firstOnly oneByte.data =
        .error (lit "proto: cannot parse invalid wire-format data") := by decide
    have hfirst : firstOnly firstRequest.data = .ok ⟨some ⟨1, [], [], [], .msgNotify⟩, []⟩ := by
      decide
    intro msg hmsg req hreq
    rcases List.mem_pair.1 hmsg with rfl | rfl
    · rw [hfails] at hreq
      cases hreq
    · rw [hfirst] at hreq
      cases hreq
      rfl
  obtain ⟨hexists, hevery⟩ :=
    payloads_survived_iff firstOnly 1 (by decide) [oneByte, firstRequest]
  exact ⟨hexists.2 hmsgs, fun acts s hrun hreceived => (hevery acts s hrun hreceived).2 hmsgs⟩

/-- **An empty payload**: it unmarshals to a request without message, whose
reply is then written. -/
theorem empty_payload_panics :
    ∃ s, (machine emptyOnly 1).run .start
        [.arrive ⟨[], lit "_INBOX.1"⟩, .deliver, .receive] = some s ∧
      s.receiver = .draining true ∧ s.enqueued = [] ∧ ¬ Survived emptyOnly s := by
  refine ⟨_, rfl, by decide, rfl, ?_⟩
  rintro ⟨hpanicking, -⟩
  exact absurd hpanicking (by decide)

end Receive

end Server

end Nrpc
