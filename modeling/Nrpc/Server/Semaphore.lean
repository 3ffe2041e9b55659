import Nrpc.Server.Answers
/-!
# The semaphore of a server

A goroutine acquires the semaphore, or is rejected by it, and releases what
it acquired behind its response. What is taken of the semaphore is what the
goroutines hold, so no more of them are under way than it has room for, and
each that has returned has released what it acquired.

`configure` makes a semaphore for a positive size only, and the goroutines
use it in any case: a server configured for no limit panics at the first
request it hands to one (`semaphore_sound_iff`).
-/

namespace Nrpc

namespace Server

open Context

/-! ## What happens to the semaphore -/

inductive SemEvent
  /-- A semaphore that is nil is used. -/
  | missing
  | acquired
  /-- `Acquire` returns an error. -/
  | rejected
  | released
deriving DecidableEq

/-- What a step does with the semaphore, and which goroutine does it. -/
def semEvents (setup : Setup) (s : State) : Action → List (ℕ × SemEvent)
  | .thread _ _ => []
  | .job j amb =>
    match s.jobs[j]?.map Job.pc with
    | some .acquiring =>
      match setup.sempWeighted, amb.refused with
      | none, _ => [(j, .missing)]
      | some _, some _ => [(j, .rejected)]
      | some size, none => if s.cur < size then [(j, .acquired)] else []
    | some .releasing => if s.cur = 0 then [] else [(j, .released)]
    | _ => []

/-- What happens to the semaphore along a run. -/
def semTrace (env : Env) (setup : Setup) (s : State) (acts : List Action) : List (ℕ × SemEvent) :=
  (dispatch env setup).observe (semEvents setup) s acts

/-- What a goroutine has done with the semaphore. -/
def history (j : ℕ) (trace : List (ℕ × SemEvent)) : List SemEvent :=
  (trace.filter (·.1 = j)).map Prod.snd

/-- **The semaphore limits**: no more goroutines than it has room for are
between their `Acquire` and their `Release`; each of them has acquired and
released, been rejected, or not come to it yet; one that has returned is not
left with what it acquired; and one that has acquired is not held up. -/
structure Limits (env : Env) (setup : Setup) (size : ℕ) (s : State)
    (trace : List (ℕ × SemEvent)) : Prop where
  bounded : tally Job.permits s.jobs ≤ size
  paired : ∀ j, history j trace ∈
    [[], [SemEvent.rejected], [SemEvent.acquired], [SemEvent.acquired, SemEvent.released]]
  returned : ∀ j job, s.jobs[j]? = some job → job.pc = .done → history j trace ≠ [.acquired]
  goesOn : ∀ j amb, s.crashed = false → history j trace = [.acquired] →
    ∃ s', (dispatch env setup).step s (.job j amb) = some s'

/-- **Concurrency limiting is sound** for a configuration: whatever the
server runs on and whatever the requests and their interleaving, no step
uses a missing semaphore, and one of positive size limits. -/
def SemaphoreSound (config : Config) (setup : Setup) : Prop :=
  ∀ env h reqs acts s, (dispatch env setup).run (.init setup h reqs) acts = some s →
    (∀ j, (j, .missing) ∉ semTrace env setup (.init setup h reqs) acts) ∧
      ∀ size : ℕ, 0 < size → config.semaphore = size →
        Limits env setup size s (semTrace env setup (.init setup h reqs) acts)

variable {env : Env} {setup : Setup} {s s' : State} {a : Action}

/-! ## What a step can do -/

/-- A move of a task or goroutine: what it does with the semaphore, and how
much of the semaphore is taken before and after. -/
inductive JobMove (setup : Setup) : ℕ → JobPc → List SemEvent → JobPc → ℕ → Prop
  | started {cur : ℕ} : JobMove setup cur .queued [] (.processing false) cur
  | missing {cur : ℕ} (hnone : setup.sempWeighted = none) :
      JobMove setup cur .acquiring [.missing] .acquiring cur
  | rejected {cur : ℕ} {resp : Response} :
      JobMove setup cur .acquiring [.rejected] (.responding false resp) cur
  | acquired {cur size : ℕ} (hsize : setup.sempWeighted = some size) (hlt : cur < size) :
      JobMove setup cur .acquiring [.acquired] (.processing true) (cur + 1)
  | late {cur : ℕ} {acquired : Bool} {resp : Response} :
      JobMove setup cur (.processing acquired) [] (.responding acquired resp) cur
  | checked {cur : ℕ} {acquired : Bool} :
      JobMove setup cur (.processing acquired) [] (.selecting acquired) cur
  | processed {cur : ℕ} {acquired : Bool} {resp : Response} :
      JobMove setup cur (.selecting acquired) [] (.responding acquired resp) cur
  | responded {cur : ℕ} {acquired : Bool} {resp : Response} :
      JobMove setup cur (.responding acquired resp) [] (exitPc acquired) cur
  | released {cur : ℕ} : JobMove setup (cur + 1) .releasing [.released] .done cur
  /-- `Release` panics when nothing is taken. -/
  | overrun : JobMove setup 0 .releasing [] .releasing 0

/-- **What a step does** to the tasks, the goroutines and the semaphore: a
thread hands a request on at most, or one task or goroutine moves. -/
inductive Moves (setup : Setup) (s s' : State) : List (ℕ × SemEvent) → Prop
  | none (hjobs : s'.jobs = s.jobs) (hcur : s'.cur = s.cur) : Moves setup s s' []
  | handedOn (job : Job) (hpc : job.pc = .queued ∨ job.pc = .acquiring)
      (hjobs : s'.jobs = s.jobs ++ [job]) (hcur : s'.cur = s.cur) : Moves setup s s' []
  | moved (j : ℕ) (job : Job) (pc : JobPc) (events : List SemEvent) (hjob : s.jobs[j]? = some job)
      (hmove : JobMove setup s.cur job.pc events pc s'.cur)
      (hjobs : s'.jobs = s.jobs.set j { job with pc := pc }) :
      Moves setup s s' (events.map fun e => (j, e))

@[simp] theorem jobs_respond {req : Request} {resp : Response} :
    (s.respond env req resp).jobs = s.jobs := by
  unfold State.respond
  split <;> rfl

@[simp] theorem cur_respond {req : Request} {resp : Response} :
    (s.respond env req resp).cur = s.cur := by
  unfold State.respond
  split <;> rfl

theorem moves_of_threadStep {t : ℕ} {th : Thread} {amb : Ambient}
    (h : threadStep env s t th amb = some s') : Moves setup s s' [] := by
  unfold threadStep at h
  split at h
  · split at h
    · cases h
    · cases h
      exact .none rfl rfl
  · split at h
    · cases h
      exact .none rfl rfl
    · split at h <;> cases h <;> exact .none rfl rfl
  · split at h
    · cases h
      exact .none (by simp [State.moveThread]) (by simp [State.moveThread])
    · cases h
      exact .none rfl rfl
  · split at h
    · cases h
      exact .none rfl rfl
    · cases h
      exact .handedOn _ entryPc_cases rfl rfl

theorem moves_of_jobStep {j : ℕ} {job : Job} {amb : Ambient} (hjob : s.jobs[j]? = some job)
    (h : jobStep env setup s j job amb = some s') :
    Moves setup s s' (semEvents setup s (.job j amb)) := by
  -- a goroutine that panics stays where it is
  have hsame : s.crash.jobs = s.jobs.set j job := by
    obtain ⟨hlt, rfl⟩ := List.getElem?_eq_some_iff.1 hjob
    exact (List.set_getElem_self hlt).symm
  obtain ⟨req, ctx, start, timeout, pc⟩ := job
  simp only [semEvents, hjob, Option.map_some]
  cases pc with
  | queued =>
    cases h
    exact .moved j _ _ [] hjob .started rfl
  | acquiring =>
    cases hsem : setup.sempWeighted with
    | none =>
      simp only [jobStep, hsem, Option.some.injEq] at h
      subst h
      exact .moved j _ .acquiring [.missing] hjob (.missing hsem) hsame
    | some size =>
      cases hrefused : amb.refused with
      | some e =>
        simp only [jobStep, hsem, hrefused, Option.some.injEq] at h
        subst h
        exact .moved j _ _ [.rejected] hjob .rejected rfl
      | none =>
        simp only [jobStep, hsem, hrefused] at h
        split at h
        · rename_i hlt
          cases h
          simp only [if_pos hlt]
          exact .moved j _ _ [.acquired] hjob (.acquired hsem hlt) rfl
        · cases h
  | processing acquired =>
    simp only [jobStep] at h
    split at h
    · cases h
      exact .moved j _ _ [] hjob .late rfl
    · cases h
      exact .moved j _ _ [] hjob .checked rfl
  | selecting acquired =>
    cases h
    exact .moved j _ _ [] hjob .processed rfl
  | responding acquired resp =>
    cases h
    refine .moved j _ (exitPc acquired) [] hjob ?_ (by simp [State.moveJob])
    rw [cur_respond]
    exact .responded
  | releasing =>
    simp only [jobStep] at h
    cases hcur : s.cur with
    | zero =>
      simp only [hcur, if_true, Option.some.injEq] at h
      subst h
      refine .moved j _ .releasing [] hjob ?_ hsame
      show JobMove setup s.cur _ _ _ s.cur
      rw [hcur]
      exact .overrun
    | succ cur =>
      simp only [hcur] at h
      cases h
      refine .moved j _ .done [.released] hjob ?_ rfl
      rw [hcur]
      exact .released
  | done => cases h

/-- **Every step is such a move.** -/
theorem moves_of_step (h : (dispatch env setup).step s a = some s') :
    Moves setup s s' (semEvents setup s a) := by
  cases a with
  | thread t amb =>
    simp only [dispatch, step] at h
    split at h
    · cases h
    · obtain ⟨th, -, hstep⟩ := Option.bind_eq_some_iff.1 h
      exact moves_of_threadStep hstep
  | job j amb =>
    simp only [dispatch, step] at h
    split at h
    · cases h
    · obtain ⟨job, hjob, hstep⟩ := Option.bind_eq_some_iff.1 h
      exact moves_of_jobStep hjob hstep

/-! ## What is taken -/

/-- **What is taken of the semaphore** is what the goroutines hold, and no
more than there is. -/
structure Taken (setup : Setup) (s : State) : Prop where
  cur_eq : s.cur = tally Job.permits s.jobs
  cur_le : ∀ size ∈ setup.sempWeighted, s.cur ≤ size

theorem taken_init {h : Store} {reqs : List Request} : Taken setup (.init setup h reqs) where
  cur_eq := rfl
  cur_le := fun _ _ => Nat.zero_le _

/-- The permits of a move are the change of what is taken. -/
theorem JobMove.permits {cur cur' : ℕ} {job : Job} {pc : JobPc} {events : List SemEvent}
    (h : JobMove setup cur job.pc events pc cur') :
    cur' + job.permits = cur + Job.permits { job with pc := pc } := by
  obtain ⟨req, ctx, start, timeout, pc₀⟩ := job
  cases h with
  | started => rfl
  | missing => rfl
  | rejected => rfl
  | acquired => rfl
  | @late _ acquired => cases acquired <;> rfl
  | @checked _ acquired => cases acquired <;> rfl
  | @processed _ acquired => cases acquired <;> rfl
  | @responded _ acquired => cases acquired <;> rfl
  | released => rfl
  | overrun => rfl

theorem JobMove.cur_le {cur cur' size : ℕ} {pc pc' : JobPc} {events : List SemEvent}
    (h : JobMove setup cur pc events pc' cur') (hsize : setup.sempWeighted = some size)
    (hcur : cur ≤ size) : cur' ≤ size := by
  cases h with
  | acquired hsize' hlt =>
    rw [hsize] at hsize'
    cases hsize'
    exact hlt
  | released => omega
  | _ => exact hcur

theorem taken_step (hs : Taken setup s) (h : (dispatch env setup).step s a = some s') :
    Taken setup s' := by
  obtain ⟨hcur, hle⟩ := hs
  obtain ⟨events, hmoves⟩ : ∃ events, Moves setup s s' events := ⟨_, moves_of_step h⟩
  cases hmoves with
  | none hjobs hcur' => exact ⟨by rw [hcur', hjobs, hcur], by rw [hcur']; exact hle⟩
  | handedOn job hpc hjobs hcur' =>
    have hpermits : job.permits = 0 := by rcases hpc with hpc | hpc <;> simp [Job.permits, hpc]
    exact ⟨by rw [hcur', hjobs, hcur]; simp [hpermits], by rw [hcur']; exact hle⟩
  | moved j job pc events hjob hmove hjobs =>
    have hset := @tally_set _ _ _ Job.permits _ job { job with pc := pc } _ hjob
    have hpermits := hmove.permits
    refine ⟨?_, fun size hsize => hmove.cur_le hsize (hle size hsize)⟩
    rw [hjobs]
    omega

/-! ## What a goroutine has done -/

/-- The history that goes with where a task or goroutine is. -/
def Recorded (past : List SemEvent) : Option JobPc → Prop
  | none | some .queued | some .acquiring | some (.processing false)
  | some (.selecting false) => past = []
  | some (.processing true) | some (.selecting true) | some (.responding true _)
  | some .releasing => past = [.acquired]
  | some (.responding false _) => past = [] ∨ past = [.rejected]
  | some .done => past = [] ∨ past = [.rejected] ∨ past = [.acquired, .released]

theorem Recorded.mem {past : List SemEvent} {pc : Option JobPc} (h : Recorded past pc) : past ∈
    [[], [SemEvent.rejected], [SemEvent.acquired], [SemEvent.acquired, SemEvent.released]] := by
  simp only [List.mem_cons, List.not_mem_nil, or_false]
  unfold Recorded at h
  split at h <;> tauto

/-- **A move adds to the history what goes with where it leads.** -/
theorem JobMove.recorded {cur cur' : ℕ} {pc pc' : JobPc} {past events : List SemEvent}
    (h : JobMove setup cur pc events pc' cur') (hsem : setup.sempWeighted.isSome)
    (hpast : Recorded past (some pc)) : Recorded (past ++ events) (some pc') := by
  cases h with
  | started => simpa [Recorded] using hpast
  | missing hnone => simp [hnone] at hsem
  | rejected =>
    obtain rfl : past = [] := hpast
    exact Or.inr rfl
  | acquired =>
    obtain rfl : past = [] := hpast
    rfl
  | @late _ acquired =>
    rw [List.append_nil]
    cases acquired with
    | true => exact hpast
    | false => exact Or.inl hpast
  | @checked _ acquired =>
    rw [List.append_nil]
    cases acquired <;> exact hpast
  | @processed _ acquired =>
    rw [List.append_nil]
    cases acquired with
    | true => exact hpast
    | false => exact Or.inl hpast
  | responded =>
    rename_i acquired resp
    rw [List.append_nil]
    cases acquired with
    | true => exact hpast
    | false =>
      rcases hpast with hpast | hpast
      · exact Or.inl hpast
      · exact Or.inr (Or.inl hpast)
  | released =>
    obtain rfl : past = [.acquired] := hpast
    exact Or.inr (Or.inr rfl)
  | overrun => simpa [Recorded] using hpast

/-- Only the goroutine that moves has its history changed. -/
theorem history_append (j k : ℕ) (seen : List (ℕ × SemEvent)) (events : List SemEvent) :
    history k (seen ++ events.map fun e => (j, e)) =
      if j = k then history k seen ++ events else history k seen := by
  unfold history
  rw [List.filter_append, List.map_append, List.filter_map, List.map_map]
  by_cases hjk : j = k
  · simp [hjk, Function.comp_def]
  · simp [hjk, Function.comp_def]

theorem recorded_step {seen : List (ℕ × SemEvent)} (hsem : setup.sempWeighted.isSome)
    (hs : ∀ j, Recorded (history j seen) (s.jobs[j]?.map Job.pc))
    (h : (dispatch env setup).step s a = some s') :
    ∀ j, Recorded (history j (seen ++ semEvents setup s a)) (s'.jobs[j]?.map Job.pc) := by
  intro k
  have hk := hs k
  obtain ⟨events, hevents, hmoves⟩ : ∃ events, semEvents setup s a = events ∧
      Moves setup s s' events := ⟨_, rfl, moves_of_step h⟩
  rw [hevents]
  cases hmoves with
  | none hjobs =>
    rw [List.append_nil, hjobs]
    exact hk
  | handedOn job hpc hjobs =>
    rw [List.append_nil, hjobs]
    rcases Nat.lt_trichotomy k s.jobs.length with hlt | rfl | hgt
    · rwa [List.getElem?_append_left hlt]
    · -- the new one has no history yet
      rw [List.getElem?_eq_none (Nat.le_refl _)] at hk
      rcases hpc with hpc | hpc
      · simpa [hpc, Recorded] using hk
      · simpa [hpc, Recorded] using hk
    · rw [List.getElem?_eq_none (by simp; omega)]
      rwa [List.getElem?_eq_none (by omega)] at hk
  | moved j job pc events hjob hmove hjobs =>
    rw [history_append, hjobs]
    by_cases hjk : j = k
    · subst hjk
      obtain ⟨hlt, -⟩ := List.getElem?_eq_some_iff.1 hjob
      rw [if_pos rfl, List.getElem?_set_self hlt]
      rw [hjob] at hk
      exact hmove.recorded hsem hk
    · rwa [if_neg hjk, List.getElem?_set_ne hjk]

/-! ## Runs -/

/-- Where the history is that of one who has acquired, the goroutine holds
the semaphore and moves on. -/
theorem exists_step_of_acquired {past : List SemEvent} {j : ℕ} (amb : Ambient)
    (hrecorded : Recorded past (s.jobs[j]?.map Job.pc)) (hpast : past = [.acquired])
    (hcrashed : s.crashed = false) : ∃ s', (dispatch env setup).step s (.job j amb) = some s' := by
  subst hpast
  cases hjob : s.jobs[j]? with
  | none => simp [hjob, Recorded] at hrecorded
  | some job =>
    simp only [dispatch, step, hcrashed, hjob, Bool.false_eq_true, if_false, Option.bind_some]
    rw [hjob, Option.map_some] at hrecorded
    obtain ⟨req, ctx, start, timeout, pc⟩ := job
    cases pc with
    | queued => simp [Recorded] at hrecorded
    | acquiring => simp [Recorded] at hrecorded
    | processing acquired =>
      simp only [jobStep]
      split
      · exact ⟨_, rfl⟩
      · exact ⟨_, rfl⟩
    | selecting acquired => exact ⟨_, rfl⟩
    | responding acquired resp => exact ⟨_, rfl⟩
    | releasing =>
      simp only [jobStep]
      split
      · exact ⟨_, rfl⟩
      · exact ⟨_, rfl⟩
    | done => simp [Recorded] at hrecorded

/-- **A semaphore limits**, along every run. -/
theorem limits_of_run {h : Store} {reqs : List Request} {acts : List Action} {size : ℕ}
    (hsize : setup.sempWeighted = some size)
    (hrun : (dispatch env setup).run (.init setup h reqs) acts = some s) :
    Limits env setup size s (semTrace env setup (.init setup h reqs) acts) := by
  have htaken : Taken setup s :=
    Machine.run_invariant_of_step (fun _ _ _ hs hstep => taken_step hs hstep) taken_init hrun
  have hrecorded : ∀ j, Recorded (history j (semTrace env setup (.init setup h reqs) acts))
      (s.jobs[j]?.map Job.pc) := by
    have hstart : ∀ j, Recorded (history j [])
        ((State.init setup h reqs).jobs[j]?.map Job.pc) := fun _ => rfl
    exact Machine.run_history (I := fun s seen => ∀ j, Recorded (history j seen)
      (s.jobs[j]?.map Job.pc)) (fun _ _ _ _ hs hstep => recorded_step (by simp [hsize]) hs hstep)
      hstart hrun
  refine ⟨?_, fun j => ?_, fun j job hjob hdone => ?_, fun j amb hcrashed hpast => ?_⟩
  · rw [← htaken.cur_eq]
    exact htaken.cur_le size hsize
  · exact (hrecorded j).mem
  · have hj := hrecorded j
    rw [hjob, Option.map_some, hdone] at hj
    rcases hj with hj | hj | hj <;> simp [hj]
  · exact exists_step_of_acquired amb (hrecorded j) hpast hcrashed

/-- Only a semaphore that is missing is used as one. -/
theorem missing_notMem {acts : List Action} (hsem : setup.sempWeighted.isSome) (j : ℕ) :
    (j, .missing) ∉ semTrace env setup s acts := by
  intro hmem
  obtain ⟨s', a, -, hevent⟩ := Machine.mem_observe hmem
  obtain ⟨size, hsize⟩ := Option.isSome_iff_exists.1 hsem
  unfold semEvents at hevent
  split at hevent
  · simp at hevent
  · split at hevent
    · rw [hsize] at hevent
      split at hevent <;> simp_all
    · split at hevent <;> simp at hevent
    · simp at hevent

/-! ## Configurations -/

/-- The semaphore of a configuration has the size configured. -/
theorem sempWeighted_of_configure {config : Config} {size : ℕ} (hpos : 0 < size)
    (hconfig : configure config = .ok setup) (hsize : config.semaphore = size) :
    setup.sempWeighted = some size := by
  have hsem : 0 < config.semaphore := by omega
  unfold configure at hconfig
  split_ifs at hconfig
  cases hconfig
  simp [hsize]

/-- What a configuration without a limit, and with a thread, sets up. -/
theorem setup_of_no_limit {config : Config} (hconfig : configure config = .ok setup)
    (hsem : config.semaphore ≤ 0) (hservices : config.services ≠ 0) :
    ∃ n, setup = ⟨n + 1, none⟩ := by
  unfold configure at hconfig
  split_ifs at hconfig with hconnect hzero hneg hpos
  · omega
  · cases hconfig
    exact ⟨config.services.toNat - 1, by congr 1; omega⟩

/-- A server without threads takes no step. -/
theorem acts_eq_nil {h : Store} {reqs : List Request} {acts : List Action}
    (hservice : setup.service = 0)
    (hrun : (dispatch env setup).run (.init setup h reqs) acts = some s) : acts = [] := by
  cases acts with
  | nil => rfl
  | cons a acts =>
    obtain ⟨mid, hstep, -⟩ := Machine.run_cons_eq_some_iff.1 hrun
    cases a <;> simp [dispatch, step, State.init, hservice] at hstep

/-- The times of a request without a share id. -/
def plainMetadata : List UInt8 := lit "\x7b\"req-start-time\":\"100\",\"reqTimeout\":\"10s\"\x7d"

/-- A server that reads this metadata. -/
def plainServer : Env :=
  { roomServer with
    lib :=
      { roomServer.lib with
        json :=
          { roomServer.lib.json with
            parse := fun data =>
              if data = plainMetadata then
                .ok (.object [(startTimeKey, .string (lit "100")),
                  (requestTimeout, .string (lit "10s"))])
              else .error notMetadata } } }

/-- A request without a share id. -/
def plainRequest : Request :=
  ⟨some ⟨1, lit "room.join", [], lit "inbox.1", .msgRequest⟩, plainMetadata⟩

/-- The first thread takes a request in and hands it on, and its goroutine
goes for the semaphore. -/
def handOnFirst : List Action :=
  let amb : Ambient := ⟨lit "id", 200, false, 0, none⟩
  [.thread 0 amb, .thread 0 amb, .thread 0 amb, .job 0 amb]

/-- **Without a semaphore, the first goroutine uses it all the same.** -/
theorem missing_of_none (n : ℕ) :
    ∃ s, (dispatch plainServer ⟨n + 1, none⟩).run
        (.init ⟨n + 1, none⟩ ⟨fun _ => .empty, 0⟩ [plainRequest]) handOnFirst = some s ∧
      s.crashed = true ∧
      semTrace plainServer ⟨n + 1, none⟩ (.init ⟨n + 1, none⟩ ⟨fun _ => .empty, 0⟩ [plainRequest])
        handOnFirst = [(0, .missing)] :=
  ⟨_, rfl, rfl, rfl⟩

/-- **Concurrency limiting is sound exactly for** a semaphore of positive
size, or a server that takes no request in. -/
theorem semaphore_sound_iff (config : Config) (setup : Setup)
    (hconfig : configure config = .ok setup) :
    SemaphoreSound config setup ↔ 0 < config.semaphore ∨ config.services = 0 := by
  obtain ⟨hservice, hsome⟩ := configure_eq_ok hconfig
  have hlimits : ∀ env h reqs acts s,
      (dispatch env setup).run (.init setup h reqs) acts = some s →
      ∀ size : ℕ, 0 < size → config.semaphore = size →
        Limits env setup size s (semTrace env setup (.init setup h reqs) acts) :=
    fun _ _ _ _ _ hrun _ hpos hsize =>
      limits_of_run (sempWeighted_of_configure hpos hconfig hsize) hrun
  constructor
  · intro h
    by_contra hnot
    push Not at hnot
    obtain ⟨n, rfl⟩ := setup_of_no_limit hconfig hnot.1 hnot.2
    obtain ⟨s, hrun, -, htrace⟩ := missing_of_none n
    refine (h _ _ _ _ s hrun).1 0 ?_
    rw [htrace]
    exact List.mem_singleton_self _
  · rintro (hsem | hservices) env h reqs acts s hrun
    · exact ⟨missing_notMem (hsome.2 hsem), hlimits env h reqs acts s hrun⟩
    · refine ⟨?_, hlimits env h reqs acts s hrun⟩
      obtain rfl := acts_eq_nil (by rw [hservice, hservices]; rfl) hrun
      simp [semTrace, Machine.observe]

/-- A server with a semaphore of size two. -/
theorem semaphore_sound_iff_two :
    configure ⟨1, lit "nats://localhost:4222", 75, 2⟩ = .ok ⟨1, some 2⟩ ∧
      SemaphoreSound ⟨1, lit "nats://localhost:4222", 75, 2⟩ ⟨1, some 2⟩ := by
  have hconfig : configure ⟨1, lit "nats://localhost:4222", 75, 2⟩ = .ok ⟨1, some 2⟩ := by decide
  exact ⟨hconfig, (semaphore_sound_iff _ _ hconfig).2 (Or.inl (by decide))⟩

/-- **A configuration without a limit is accepted, and its server panics at
the first request** that goes to a goroutine. -/
theorem no_limit_panics :
    configure ⟨1, lit "nats://localhost:4222", 75, 0⟩ = .ok ⟨1, none⟩ ∧
      (∃ s, (dispatch plainServer ⟨1, none⟩).run
          (.init ⟨1, none⟩ ⟨fun _ => .empty, 0⟩ [plainRequest]) handOnFirst = some s ∧
        s.crashed = true ∧
        semTrace plainServer ⟨1, none⟩ (.init ⟨1, none⟩ ⟨fun _ => .empty, 0⟩ [plainRequest])
          handOnFirst = [(0, .missing)]) ∧
      ¬ SemaphoreSound ⟨1, lit "nats://localhost:4222", 75, 0⟩ ⟨1, none⟩ := by
  obtain ⟨s, hrun, hcrashed, htrace⟩ := missing_of_none 0
  refine ⟨by decide, ⟨s, hrun, hcrashed, htrace⟩, fun h => ?_⟩
  refine (h _ _ _ _ s hrun).1 0 ?_
  rw [htrace]
  exact List.mem_singleton_self _

end Server

end Nrpc
