import DevfilePush.Proofs.Engine.Drawn
import DevfilePush.Proofs.Pool.Turns
import DevfilePush.Proofs.Pool.Unique

/-!
# Pushes at once do what they do in turn

Whatever order the calls of several pushes are made in, every push that has got its lock works alone on
its component's part of the engine: pushes of other components leave this part as it is, and those of the
same component wait or are over. So in each part it looks as if the component's pushes were carried out in
turn, in the order in which they got the lock. All parts together are what the pushes leave in turn, in any
order that keeps that of each lock, and with whatever names and ids the engine gives then.

## Main definitions

* `Schedule.Stands`: how far a push has come.
* `Schedule.Carried`: what a component's pushes have done in its part.
* `Schedule.Serial`: what holds of every schedule that can be reached.

## Main statements

* `Schedule.Serial.step`, `Schedule.Reaches.serial`: every step keeps it, and so does every history.
* `Schedule.Serial.turns`: what a component's pushes have done when all have ended.
* `Schedule.Reaches.pool`: a schedule is one history of the pool, without drops.
-/

namespace DevfilePush

/-! ## Where a session stands -/

section Pause

variable {commandLine : ContainerConfig → String} {component : String} {h after : Holdings}
  {session : Script PushReport} {request : Request} {next : Answer request.Reply → Script PushReport}
  {verdict : Except PushError PushReport}

/-- What a session keeps to, its next call and all that follows keep to. -/
theorem Script.KeepsTo.calling (keeps : session.KeepsTo commandLine component h)
    (pauses : Pause.ofSession session = .calling request next) :
    request.KeepsTo component h ∧ ∀ (lot : Lot) answer, h.DistinctIds →
      (lot.leaves commandLine h request).DistinctIds → lot.Answers h request answer →
      (next answer).KeepsTo commandLine component (lot.leaves commandLine h request) := by
  induction session with
  | done | fail => cases pauses
  | log event rest ih => exact ih keeps pauses
  | call r deadline rest ih =>
    cases pauses
    exact keeps

/-- A session goes on as its next call is answered. -/
theorem Script.Undergoes.of_calling (pauses : Pause.ofSession session = .calling request next)
    {lot : Lot} {rest : List Lot} {answer : Answer request.Reply}
    (answers : lot.Answers h request answer)
    (run : (next answer).Undergoes commandLine rest (lot.leaves commandLine h request) verdict after) :
    session.Undergoes commandLine (lot :: rest) h verdict after := by
  induction session with
  | done | fail => cases pauses
  | log event next' ih => exact ih pauses
  | call r deadline next' ih =>
    cases pauses
    exact ⟨lot, rest, answer, rfl, answers, run⟩

/-- A call of a session that keeps to a component, seen from the component's part: the session goes on from
there, and what belongs to others is as it was. -/
theorem Script.KeepsTo.goes_on {lot : Lot} {rest : List Lot} {answer : Answer request.Reply}
    (keeps : session.KeepsTo commandLine component (h.part (some component)))
    (pauses : Pause.ofSession session = .calling request next)
    (fresh : (h.ids ++ (lot :: rest).map (·.id)).Nodup) (answers : lot.Answers h request answer) :
    (next answer).KeepsTo commandLine component
        ((lot.leaves commandLine h request).part (some component)) ∧
      (∀ verdict after, (next answer).Undergoes commandLine rest
        ((lot.leaves commandLine h request).part (some component)) verdict after →
        session.Undergoes commandLine (lot :: rest) (h.part (some component)) verdict after) ∧
      ∀ owner ≠ some component, (lot.leaves commandLine h request).part owner = h.part owner := by
  obtain ⟨hrequest, hnext⟩ := keeps.calling pauses
  have ids : h.DistinctIds := distinctIds_of_nodup fresh
  have ids' : (lot.leaves commandLine h request).DistinctIds :=
    distinctIds_of_nodup (nodup_ids_leaves commandLine fresh request)
  have hpart : (lot.leaves commandLine h request).part (some component) =
      lot.leaves commandLine (h.part (some component)) request := Lot.part_leaves hrequest
  have answers' := Lot.answers_part ids hrequest answers
  refine ⟨?_, fun verdict after run => ?_, fun _ other => Lot.part_leaves_of_ne ids hrequest other⟩
  · rw [hpart]
    exact hnext lot answer (ids.part _) (hpart ▸ ids'.part _) answers'
  · rw [hpart] at run
    exact Undergoes.of_calling pauses answers' run

theorem Script.undergoes_of_ended (ends : Pause.ofSession session = .ended verdict) (lots : List Lot)
    (h : Holdings) : session.Undergoes commandLine lots h verdict h := by
  induction session with
  | done | fail =>
    cases ends
    exact ⟨rfl, rfl⟩
  | log event rest ih => exact ih ends
  | call => cases ends

end Pause

namespace Schedule

variable {commandLine : ContainerConfig → String} {config : ValidConfig}
  {pushes : List (Push × UrlListing)} {lots : Nat → List Lot} {start : Holdings} {s s' : Schedule}
  {n : Nat} {task : PushTask} {session : Script PushReport} {component : String}

/-! ## What holds of every schedule -/

/-- How far a push has come: it has not begun, it waits, it works, or it has ended, after its lock or
without it. -/
inductive Stands (config : ValidConfig) (lots : Nat → List Lot) (s : Schedule) (n : Nat)
    (task : PushTask) : Prop
  | idle (stage : task.stage = .idle) (new : n ∉ s.order) (full : s.lots n = lots n)
  | waiting (stage : task.stage = .engaged (task.push.session config task.listing))
      (passed : task.push.check = .ok ()) (new : n ∉ s.order) (full : s.lots n = lots n)
  | working {session : Script PushReport} (stage : task.stage = .engaged session)
      (passed : task.push.check = .ok ()) (got : n ∈ s.order) (owns : s.pool.locks.owns n = true)
  | finished {verdict : Except PushError PushReport} (stage : task.stage = .ended verdict)
      (passed : task.push.check = .ok ()) (got : n ∈ s.order)
  | refused {error : PushError} (stage : task.stage = .ended (.error error))
      (fails : task.push.check = .error error) (new : n ∉ s.order)

/-- The pushes of a component that have got their lock, in this order. -/
def orderOf (pushes : List (Push × UrlListing)) (s : Schedule) (component : String) : List Nat :=
  s.order.filter fun n => componentOf? pushes n = some component

/-- What a component's pushes have done in its part: those that are over did it in turn, and if one has got
the lock and is not over, all that it can still come to is what it could come to from where they left
off. -/
inductive Carried (commandLine : ContainerConfig → String) (config : ValidConfig)
    (pushes : List (Push × UrlListing)) (lots : Nat → List Lot) (start : Holdings) (s : Schedule)
    (component : String) : Prop
  | between {ran : List (Nat × Except PushError PushReport)}
      (turns : InTurn commandLine config pushes lots (start.part (some component)) ran
        (s.pool.holdings.part (some component)))
      (numbers : ran.map (·.1) = s.orderOf pushes component)
      (ended : ∀ e ∈ ran, s.EndedWith e.1 e.2)
  | during {ran : List (Nat × Except PushError PushReport)} {before : Holdings} {n : Nat} {p : Push}
      {listing : UrlListing} {session : Script PushReport}
      (turns : InTurn commandLine config pushes lots (start.part (some component)) ran before)
      (numbers : ran.map (·.1) ++ [n] = s.orderOf pushes component)
      (ended : ∀ e ∈ ran, s.EndedWith e.1 e.2)
      (engaged : s.pool.Engaged n component session) (found : pushes[n]? = some (p, listing))
      (keeps : session.KeepsTo commandLine component (s.pool.holdings.part (some component)))
      (goes : ∀ verdict after, session.Undergoes commandLine (s.lots n)
        (s.pool.holdings.part (some component)) verdict after →
        (p.script config listing).Undergoes commandLine (lots n) before verdict after)

/-- What holds of every schedule that pushes can come to. -/
structure Serial (commandLine : ContainerConfig → String) (config : ValidConfig)
    (pushes : List (Push × UrlListing)) (lots : Nat → List Lot) (start : Holdings) (s : Schedule) :
    Prop where
  sound : ∃ who, s.pool.Sound (Lot.conduct commandLine) start who
  tasks : ∀ n : Nat,
    (s.pool.tasks[n]?).map (fun task : PushTask => (task.push, task.listing)) = pushes[n]?
  stands : ∀ {n : Nat} {task : PushTask}, s.pool.tasks[n]? = some task → s.Stands config lots n task
  once : s.order.Nodup
  known : ∀ n ∈ s.order, ∃ task : PushTask, s.pool.tasks[n]? = some task
  ids : s.pool.holdings.DistinctIds
  drawn : DrawnOnce (·.id) s.lots s.pool.holdings.ids
  unowned : s.pool.holdings.part none = start.part none
  carried : ∀ component, s.Carried commandLine config pushes lots start component

/-! ## What does not concern a push or a component -/

/-- A push has come as far as before where its own lots, lock and turn are as before. -/
theorem Stands.congr (stands : s.Stands config lots n task) (order : n ∈ s'.order ↔ n ∈ s.order)
    (left : s'.lots n = s.lots n) (owns : s.pool.locks.owns n = true → s'.pool.locks.owns n = true) :
    s'.Stands config lots n task := by
  cases stands with
  | idle stage new full => exact .idle stage (mt order.1 new) (left.trans full)
  | waiting stage passed new full => exact .waiting stage passed (mt order.1 new) (left.trans full)
  | working stage passed got owned => exact .working stage passed (order.2 got) (owns owned)
  | finished stage passed got => exact .finished stage passed (order.2 got)
  | refused stage fails new => exact .refused stage fails (mt order.1 new)

/-- A component is carried on as before where its part and its pushes are as before. -/
theorem Carried.congr (carried : s.Carried commandLine config pushes lots start component)
    (order : s'.orderOf pushes component = s.orderOf pushes component)
    (part : s'.pool.holdings.part (some component) = s.pool.holdings.part (some component))
    (tasks : ∀ m ∈ s.orderOf pushes component, s'.pool.tasks[m]? = s.pool.tasks[m]?)
    (left : ∀ m ∈ s.orderOf pushes component, s'.lots m = s.lots m) :
    s'.Carried commandLine config pushes lots start component := by
  have hended : ∀ {ran : List (Nat × Except PushError PushReport)},
      (∀ e ∈ ran, e.1 ∈ s.orderOf pushes component) → (∀ e ∈ ran, s.EndedWith e.1 e.2) →
      ∀ e ∈ ran, s'.EndedWith e.1 e.2 := by
    intro ran hmem ended e he
    obtain ⟨task, found, hstage⟩ := ended e he
    exact ⟨task, (tasks _ (hmem e he)).trans found, hstage⟩
  cases carried with
  | between turns numbers ended =>
    refine .between (part ▸ turns) (numbers.trans order.symm) (hended (fun e he => ?_) ended)
    exact numbers ▸ List.mem_map_of_mem he
  | @during ran before n p listing session turns numbers ended engaged found keeps goes =>
    have hn : n ∈ s.orderOf pushes component :=
      numbers ▸ List.mem_append_right _ (List.mem_singleton_self n)
    obtain ⟨task, htask, hstage⟩ := engaged
    refine .during turns (numbers.trans order.symm) (hended (fun e he => ?_) ended)
      ⟨task, (tasks n hn).trans htask, hstage⟩ found (part ▸ keeps) ?_
    · exact numbers ▸ List.mem_append_left _ (List.mem_map_of_mem he)
    · rw [part, left n hn]
      exact goes

theorem mem_orderOf : n ∈ s.orderOf pushes component ↔
    n ∈ s.order ∧ componentOf? pushes n = some component := by
  simp [orderOf]

namespace Serial

variable {stage : Stage}

theorem pushes_found (serial : s.Serial commandLine config pushes lots start)
    (found : s.pool.tasks[n]? = some task) : pushes[n]? = some (task.push, task.listing) := by
  rw [← serial.tasks, found]
  rfl

theorem component_found (serial : s.Serial commandLine config pushes lots start)
    (found : s.pool.tasks[n]? = some task) : componentOf? pushes n = some task.push.component :=
  componentOf?_eq (serial.pushes_found found)

/-- A push that is carried out for its own component is not carried out for another. -/
theorem not_mem_orderOf (serial : s.Serial commandLine config pushes lots start)
    (found : s.pool.tasks[n]? = some task) (other : component ≠ task.push.component) :
    n ∉ s.orderOf pushes component := by
  intro h
  have hcomponent := (mem_orderOf.1 h).2
  rw [serial.component_found found, Option.some.injEq] at hcomponent
  exact other hcomponent.symm

/-- A push that is engaged has passed its checks. -/
theorem passed_of_engaged (serial : s.Serial commandLine config pushes lots start)
    (found : s.pool.tasks[n]? = some task) (engaged : task.stage = .engaged session) :
    task.push.check = .ok () := by
  cases serial.stands found with
  | working _ passed | waiting _ passed | finished _ passed => exact passed
  | idle stage | refused stage => simp [engaged] at stage

/-- A push that has not begun has got no lock and made no call. -/
theorem new_of_idle (serial : s.Serial commandLine config pushes lots start)
    (found : s.pool.tasks[n]? = some task) (idle : task.stage = .idle) :
    n ∉ s.order ∧ s.lots n = lots n := by
  cases serial.stands found with
  | idle _ new full => exact ⟨new, full⟩
  | waiting stage | working stage | finished stage | refused stage => simp [idle] at stage

/-! ## One push changes its stage -/

/-- Stages change, pushes do not. -/
theorem tasks_put (serial : s.Serial commandLine config pushes lots start)
    (found : s.pool.tasks[n]? = some task) (stage : Stage) (m : Nat) :
    ((s.pool.put n task stage).tasks[m]?).map (fun task : PushTask => (task.push, task.listing)) =
      pushes[m]? := by
  rw [Pool.getElem?_put found]
  split
  · subst m
    exact (serial.pushes_found found).symm
  · exact serial.tasks m

/-- Where one push changes its stage, the others have come as far as before. -/
theorem stands_put (serial : s.Serial commandLine config pushes lots start)
    (found : s.pool.tasks[n]? = some task) {m : Nat} {other : PushTask}
    (found' : s'.pool.tasks[m]? = some other) (tasks : s'.pool.tasks = (s.pool.put n task stage).tasks)
    (self : s'.Stands config lots n { task with stage }) (order : s'.order = s.order)
    (left : ∀ m ≠ n, s'.lots m = s.lots m)
    (owns : ∀ m ≠ n, s.pool.locks.owns m = true → s'.pool.locks.owns m = true) :
    s'.Stands config lots m other := by
  rw [tasks, Pool.getElem?_put found] at found'
  split at found'
  · subst m
    exact Option.some.inj found' ▸ self
  · rename_i hne
    exact (serial.stands found').congr (by rw [order]) (left m hne) (owns m hne)

theorem known_put (serial : s.Serial commandLine config pushes lots start)
    (found : s.pool.tasks[n]? = some task) (stage : Stage) :
    ∀ m ∈ s.order, ∃ task', (s.pool.put n task stage).tasks[m]? = some task' := by
  intro m hm
  rw [Pool.getElem?_put found]
  split
  · exact ⟨_, rfl⟩
  · exact serial.known m hm

/-- A push that has ended has ended when another changes its stage. -/
theorem ended_put (found : s.pool.tasks[n]? = some task)
    (tasks : s'.pool.tasks = (s.pool.put n task stage).tasks) {m : Nat} (hne : m ≠ n)
    {verdict : Except PushError PushReport} (ended : s.EndedWith m verdict) :
    s'.EndedWith m verdict := by
  obtain ⟨other, hother, hstage⟩ := ended
  refine ⟨other, ?_, hstage⟩
  rw [tasks, Pool.getElem?_put found, if_neg hne, hother]

/-- A component is carried on as before while a push that has not got its lock, or one of another
component, changes its stage. -/
theorem carried_put (serial : s.Serial commandLine config pushes lots start)
    (found : s.pool.tasks[n]? = some task) (tasks : s'.pool.tasks = (s.pool.put n task stage).tasks)
    (elsewhere : n ∉ s.orderOf pushes component) (order : s'.order = s.order)
    (part : s'.pool.holdings.part (some component) = s.pool.holdings.part (some component))
    (left : ∀ m ≠ n, s'.lots m = s.lots m) :
    s'.Carried commandLine config pushes lots start component := by
  have hne : ∀ m ∈ s.orderOf pushes component, m ≠ n := fun m hm h => elsewhere (h ▸ hm)
  refine (serial.carried component).congr (by rw [orderOf, order, orderOf]) part (fun m hm => ?_)
    fun m hm => left m (hne m hm)
  rw [tasks, Pool.getElem?_put found, if_neg (hne m hm)]

/-! ## Locks -/

/-- Whoever owns a lock owns it when somebody else arrives. -/
theorem owns_enter (serial : s.Serial commandLine config pushes lots start)
    (found : s.pool.tasks[n]? = some task) (idle : task.stage = .idle) {m : Nat}
    (owns : s.pool.locks.owns m = true) :
    (s.pool.enter n task (task.push.session config task.listing)).locks.owns m = true := by
  obtain ⟨who, sound⟩ := serial.sound
  have entered := sound.enter found idle
    (Push.session_careful (Lot.honest_conduct commandLine) task.push config task.listing)
  obtain ⟨name, hfirst⟩ := (sound.tracks.owns_iff sound.distinct).1 owns
  exact (entered.tracks.owns_iff entered.distinct).2 ⟨name, Attendance.first?_arrive hfirst _⟩

/-- Whoever owns a lock owns it when somebody else leaves. -/
theorem owns_exit (serial : s.Serial commandLine config pushes lots start)
    (found : s.pool.tasks[n]? = some task) {verdict : Except PushError PushReport} {m : Nat}
    (hne : m ≠ n) (owns : s.pool.locks.owns m = true) :
    (s.pool.exit n task (.ended verdict)).locks.owns m = true := by
  obtain ⟨who, sound⟩ := serial.sound
  have hended : ∀ session, Stage.ended verdict ≠ .engaged session := by simp
  have exited := sound.exit found hended
  obtain ⟨name, hfirst⟩ := (sound.tracks.owns_iff sound.distinct).1 owns
  exact (exited.tracks.owns_iff exited.distinct).2 ⟨name, Attendance.first?_without hfirst hne⟩

/-- A push that has got its lock and is engaged owns the lock. -/
theorem owns_of_got (serial : s.Serial commandLine config pushes lots start)
    (found : s.pool.tasks[n]? = some task) (engaged : task.stage = .engaged session)
    (got : n ∈ s.order) : s.pool.locks.owns n = true := by
  cases serial.stands found with
  | working _ _ _ owns => exact owns
  | waiting _ _ new => exact absurd got new
  | idle stage | finished stage | refused stage => simp [engaged] at stage

/-- Two pushes of one component never own its lock together. -/
theorem eq_of_owns (serial : s.Serial commandLine config pushes lots start) {m : Nat}
    {other : Script PushReport} (engaged : s.pool.Engaged n component session)
    (engaged' : s.pool.Engaged m component other) (owns : s.pool.locks.owns n = true)
    (owns' : s.pool.locks.owns m = true) : m = n := by
  obtain ⟨who, sound⟩ := serial.sound
  have hn := sound.first_of_owns engaged owns
  have hm := sound.first_of_owns engaged' owns'
  exact Option.some.inj (hm.symm.trans hn)

/-! ## Steps -/

/-- Where a push changes its stage before it has its lock, nothing else happens. -/
theorem put (serial : s.Serial commandLine config pushes lots start)
    (found : s.pool.tasks[n]? = some task) (new : n ∉ s.order) {pool : Pool} {who : Attendance}
    (sound : pool.Sound (Lot.conduct commandLine) start who)
    (tasks : pool.tasks = (s.pool.put n task stage).tasks)
    (holdings : pool.holdings = s.pool.holdings)
    (owns : ∀ m, s.pool.locks.owns m = true → pool.locks.owns m = true)
    (self : Stands config lots { s with pool } n { task with stage }) :
    Serial commandLine config pushes lots start { s with pool } where
  sound := ⟨who, sound⟩
  tasks := tasks ▸ serial.tasks_put found stage
  stands found' := serial.stands_put found found' tasks self rfl (fun _ _ => rfl) fun m _ => owns m
  once := serial.once
  known := tasks ▸ serial.known_put found stage
  ids := holdings ▸ serial.ids
  drawn := holdings ▸ serial.drawn
  unowned := holdings ▸ serial.unowned
  carried component := serial.carried_put found tasks (fun h => new (mem_orderOf.1 h).1) rfl
    (congrArg (·.part (some component)) holdings) fun _ _ => rfl

theorem refuse (serial : s.Serial commandLine config pushes lots start)
    (found : s.pool.tasks[n]? = some task) (idle : task.stage = .idle) {error : PushError}
    (fails : task.push.check = .error error) :
    Serial commandLine config pushes lots start
      { s with pool := s.pool.put n task (.ended (.error error)) } := by
  obtain ⟨new, -⟩ := serial.new_of_idle found idle
  obtain ⟨who, sound⟩ := serial.sound
  exact serial.put found new (sound.put found (by simp [idle]) (by simp)) rfl rfl (fun _ owns => owns)
    (.refused rfl fails new)

theorem begin (serial : s.Serial commandLine config pushes lots start)
    (found : s.pool.tasks[n]? = some task) (idle : task.stage = .idle)
    (passes : task.push.check = .ok ()) :
    Serial commandLine config pushes lots start
      { s with pool := s.pool.enter n task (task.push.session config task.listing) } := by
  obtain ⟨new, full⟩ := serial.new_of_idle found idle
  obtain ⟨who, sound⟩ := serial.sound
  have careful := Push.session_careful (Lot.honest_conduct commandLine) task.push config task.listing
  exact serial.put found new (sound.enter found idle careful) rfl rfl
    (fun _ owns => serial.owns_enter found idle owns) (.waiting rfl passes new full)

theorem orderOf_acquire (serial : s.Serial commandLine config pushes lots start)
    (found : s.pool.tasks[n]? = some task) (component : String) :
    orderOf pushes { s with order := s.order ++ [n] } component =
      s.orderOf pushes component ++ if task.push.component = component then [n] else [] :=
  filter_componentOf? (serial.pushes_found found) s.order component

/-- A push that gets its lock begins where the component's pushes before it left off: none of them is still
at work, or it would own the lock. -/
theorem carried_acquire (serial : s.Serial commandLine config pushes lots start)
    (found : s.pool.tasks[n]? = some task)
    (engaged : task.stage = .engaged (task.push.session config task.listing))
    (full : s.lots n = lots n) (owns : s.pool.locks.owns n = true) (new : n ∉ s.order) :
    Carried commandLine config pushes lots start { s with order := s.order ++ [n] }
      task.push.component := by
  have hengaged : s.pool.Engaged n task.push.component (task.push.session config task.listing) :=
    ⟨task, found, engaged, rfl⟩
  cases serial.carried task.push.component with
  | between turns numbers ended =>
    have passed := serial.passed_of_engaged found engaged
    refine .during turns ?_ ended hengaged (serial.pushes_found found)
      (Push.session_keepsTo passed (serial.ids.part _)) ?_
    · rw [serial.orderOf_acquire found, if_pos rfl, numbers]
    · rw [Push.script_of_passed passed, full]
      exact fun _ _ run => run
  | @during ran before m p listing session turns numbers ended engaged' =>
    -- a push in the middle of its work would own the same lock
    have hm : m ∈ s.orderOf pushes task.push.component :=
      numbers ▸ List.mem_append_right _ (List.mem_singleton_self m)
    have got := (mem_orderOf.1 hm).1
    obtain ⟨other, hother, hstage, -⟩ := id engaged'
    have owns' := serial.owns_of_got hother hstage got
    exact absurd (serial.eq_of_owns hengaged engaged' owns owns' ▸ got) new

theorem acquire (serial : s.Serial commandLine config pushes lots start)
    (found : s.pool.tasks[n]? = some task) (engaged : task.stage = .engaged session)
    (owns : s.pool.locks.owns n = true) (new : n ∉ s.order) :
    Serial commandLine config pushes lots start { s with order := s.order ++ [n] } := by
  have passed := serial.passed_of_engaged found engaged
  obtain ⟨hstage, full⟩ : task.stage = .engaged (task.push.session config task.listing) ∧
      s.lots n = lots n := by
    cases serial.stands found with
    | waiting stage _ _ full => exact ⟨stage, full⟩
    | working _ _ got => exact absurd got new
    | idle stage | finished stage | refused stage => simp [engaged] at stage
  refine
    { sound := serial.sound
      tasks := serial.tasks
      stands := fun {m other} found' => ?_
      once := List.nodup_append.2 ⟨serial.once, List.nodup_singleton n, ?_⟩
      known := List.forall_mem_append.2 ⟨serial.known, List.forall_mem_singleton.2 ⟨task, found⟩⟩
      ids := serial.ids
      drawn := serial.drawn
      unowned := serial.unowned
      carried := fun component => ?_ }
  · by_cases hmn : m = n
    · subst hmn
      obtain rfl := Option.some.inj (found.symm.trans found')
      exact .working hstage passed (List.mem_append_right _ (List.mem_singleton_self m)) owns
    · exact (serial.stands found').congr (by simp [hmn]) rfl id
  · rintro m hm _ hn rfl
    exact new (List.mem_singleton.1 hn ▸ hm)
  · by_cases hsame : task.push.component = component
    · exact hsame ▸ serial.carried_acquire found hstage full owns new
    · exact (serial.carried component).congr
        (by rw [serial.orderOf_acquire found, if_neg hsame, List.append_nil]) rfl (fun _ _ => rfl)
        fun _ _ => rfl

/-- A push that has got its lock is the one that its component is waiting for. -/
theorem during (serial : s.Serial commandLine config pushes lots start)
    (found : s.pool.tasks[n]? = some task) (engaged : task.stage = .engaged session)
    (got : n ∈ s.order) :
    ∃ ran before, InTurn commandLine config pushes lots (start.part (some task.push.component)) ran
        before ∧
      ran.map (·.1) ++ [n] = s.orderOf pushes task.push.component ∧
      (∀ e ∈ ran, e.1 ≠ n ∧ s.EndedWith e.1 e.2) ∧
      session.KeepsTo commandLine task.push.component
        (s.pool.holdings.part (some task.push.component)) ∧
      ∀ verdict after, session.Undergoes commandLine (s.lots n)
        (s.pool.holdings.part (some task.push.component)) verdict after →
        (task.push.script config task.listing).Undergoes commandLine (lots n) before verdict after := by
  have hn : n ∈ s.orderOf pushes task.push.component :=
    mem_orderOf.2 ⟨got, serial.component_found found⟩
  have hended : ∀ {verdict}, ¬ s.EndedWith n verdict := by
    rintro verdict ⟨other, found', hstage⟩
    obtain rfl := Option.some.inj (found.symm.trans found')
    simp [engaged] at hstage
  have hothers : ∀ {ran : List (Nat × Except PushError PushReport)},
      (∀ e ∈ ran, s.EndedWith e.1 e.2) → n ∉ ran.map (·.1) := by
    intro ran ended hmem
    obtain ⟨e, he, rfl⟩ := List.mem_map.1 hmem
    exact hended (ended e he)
  cases serial.carried task.push.component with
  | between turns numbers ended => exact absurd (numbers ▸ hn) (hothers ended)
  | @during ran before m p listing session' turns numbers ended engaged' found' keeps goes =>
    obtain rfl : n = m := by
      rw [← numbers, List.mem_append, List.mem_singleton] at hn
      exact hn.resolve_left (hothers ended)
    obtain ⟨hstage, -⟩ := Pool.stage_of_engaged found engaged'
    obtain rfl := Stage.engaged.inj (engaged.symm.trans hstage)
    obtain ⟨rfl, rfl⟩ := Prod.mk.inj (Option.some.inj (found'.symm.trans (serial.pushes_found found)))
    exact ⟨ran, before, turns, numbers,
      fun e he => ⟨fun h => hothers ended (h ▸ List.mem_map_of_mem he), ended e he⟩, keeps, goes⟩

/-- A call of a push that has got its lock changes its component's part only, and the push can still come
to what it could come to from where those before it left off. -/
theorem call (serial : s.Serial commandLine config pushes lots start)
    (found : s.pool.tasks[n]? = some task) (engaged : task.stage = .engaged session)
    (got : n ∈ s.order) {request : Request} {next : Answer request.Reply → Script PushReport}
    (pauses : Pause.ofSession session = .calling request next) {lot : Lot} {rest : List Lot}
    (falls : s.lots n = lot :: rest) {answer : Answer request.Reply}
    (answers : lot.Answers s.pool.holdings request answer) :
    Serial commandLine config pushes lots start {
      pool := (s.pool.put n task (.engaged (next answer))).hold
        (lot.leaves commandLine s.pool.holdings request)
      lots := fun m => if m = n then rest else s.lots m
      order := s.order } := by
  have owns := serial.owns_of_got found engaged got
  have passed := serial.passed_of_engaged found engaged
  obtain ⟨who, sound⟩ := serial.sound
  obtain ⟨ran, before, turns, numbers, ended, keeps, goes⟩ := serial.during found engaged got
  have fresh : (s.pool.holdings.ids ++ (lot :: rest).map (·.id)).Nodup :=
    List.nodup_append'.2 ⟨serial.ids, falls ▸ serial.drawn.once n, falls ▸ serial.drawn.new n⟩
  obtain ⟨keeps', goes', hothers⟩ := keeps.goes_on pauses fresh answers
  exact
    { sound := ⟨who, sound.call found engaged owns pauses ⟨lot, answers, rfl⟩⟩
      tasks := serial.tasks_put found _
      stands := fun found' => serial.stands_put found found' rfl (.working rfl passed got owns) rfl
        (fun _ hne => if_neg hne) fun _ _ owns => owns
      once := serial.once
      known := serial.known_put found _
      ids := Script.distinctIds_of_nodup (Script.nodup_ids_leaves commandLine fresh request)
      drawn := serial.drawn.after_call falls (lot.ids_leaves commandLine _ request).subset
      unowned := (hothers none nofun).trans serial.unowned
      carried := fun component => by
        by_cases hsame : component = task.push.component
        · subst hsame
          refine .during turns numbers
            (fun e he => ended_put found rfl (ended e he).1 (ended e he).2)
            ⟨{ task with stage := .engaged (next answer) }, ?_, rfl, rfl⟩ (serial.pushes_found found)
            keeps' fun verdict after run => ?_
          · exact (Pool.getElem?_put found _ _).trans (if_pos rfl)
          · change (next answer).Undergoes commandLine (if n = n then rest else s.lots n) _ _ _ at run
            rw [if_pos rfl] at run
            exact goes verdict after (falls ▸ goes' verdict after run)
        · exact serial.carried_put found rfl (serial.not_mem_orderOf found hsame) rfl
            (hothers _ (by simpa using hsame)) fun _ hne => if_neg hne }

/-- A push that ends leaves its component's part to the next one. -/
theorem finish (serial : s.Serial commandLine config pushes lots start)
    (found : s.pool.tasks[n]? = some task) (engaged : task.stage = .engaged session)
    (got : n ∈ s.order) {verdict : Except PushError PushReport}
    (ends : Pause.ofSession session = .ended verdict) :
    Serial commandLine config pushes lots start
      { s with pool := s.pool.exit n task (.ended verdict) } := by
  have passed := serial.passed_of_engaged found engaged
  obtain ⟨who, sound⟩ := serial.sound
  obtain ⟨ran, before, turns, numbers, ended, -, goes⟩ := serial.during found engaged got
  exact
    { sound := ⟨_, sound.exit found (by simp)⟩
      tasks := serial.tasks_put found _
      stands := fun found' => serial.stands_put found found' rfl (.finished rfl passed got) rfl
        (fun _ _ => rfl) fun _ hne owns => serial.owns_exit found hne owns
      once := serial.once
      known := serial.known_put found _
      ids := serial.ids
      drawn := serial.drawn
      unowned := serial.unowned
      carried := fun component => by
        by_cases hsame : component = task.push.component
        · subst hsame
          refine .between (turns.push (serial.pushes_found found)
            (goes verdict _ (Script.undergoes_of_ended ends _ _))) ?_ ?_
          · rw [List.map_append]
            exact numbers
          · rw [List.forall_mem_append]
            refine ⟨fun e he => ended_put found rfl (ended e he).1 (ended e he).2, fun e he => ?_⟩
            rw [List.mem_singleton.1 he]
            exact ⟨_, (Pool.getElem?_put found _ _).trans (if_pos rfl), rfl⟩
        · exact serial.carried_put found rfl (serial.not_mem_orderOf found hsame) rfl rfl
            fun _ _ => rfl }

/-- Every step keeps it. -/
theorem step (serial : s.Serial commandLine config pushes lots start)
    (next : Step commandLine config s s') : s'.Serial commandLine config pushes lots start := by
  cases next with
  | refuse found idle fails => exact serial.refuse found idle fails
  | begin found idle passes => exact serial.begin found idle passes
  | acquire found engaged owns new => exact serial.acquire found engaged owns new
  | call found engaged got pauses falls answers =>
    exact serial.call found engaged got pauses falls answers
  | finish found engaged got ends => exact serial.finish found engaged got ends

theorem ofPushes (unused : start.Unused lots) :
    (Schedule.ofPushes start pushes lots).Serial commandLine config pushes lots start := by
  have hidle : ∀ {n : Nat} {task : PushTask}, (Pool.ofPushes start pushes).tasks[n]? = some task →
      task.stage = .idle := by
    intro n task found
    obtain ⟨e, -, rfl⟩ := List.mem_map.1 (List.mem_of_getElem? found)
    rfl
  exact
    { sound := ⟨[], .ofPushes start pushes⟩
      tasks := fun n => by
        change ((pushes.map _)[n]?).map _ = pushes[n]?
        rw [List.getElem?_map, Option.map_map]
        exact Option.map_id'
      stands := fun found => .idle (hidle found) List.not_mem_nil rfl
      once := List.nodup_nil
      known := fun n hn => absurd hn List.not_mem_nil
      ids := unused.distinct
      drawn := unused.ids
      unowned := rfl
      carried := fun component => .between .start rfl fun e he => absurd he List.not_mem_nil }

/-- Where every push has ended, a component's pushes have done in its part what they do in turn. -/
theorem turns (serial : s.Serial commandLine config pushes lots start) (complete : s.Complete)
    (component : String) :
    ∃ ran, InTurn commandLine config pushes lots (start.part (some component)) ran
        (s.pool.holdings.part (some component)) ∧
      ran.map (·.1) = s.orderOf pushes component ∧ ∀ e ∈ ran, s.EndedWith e.1 e.2 := by
  cases serial.carried component with
  | between turns numbers ended => exact ⟨_, turns, numbers, ended⟩
  | during _ _ _ engaged =>
    obtain ⟨task, found, hstage, -⟩ := engaged
    obtain ⟨verdict, other, found', hended⟩ := complete _ (List.getElem?_eq_some_iff.1 found).1
    obtain rfl := Option.some.inj (found.symm.trans found')
    simp [hstage] at hended

end Serial

/-- Every schedule that pushes can come to keeps it. -/
theorem Reaches.serial {first last : Schedule} (reached : first.Reaches commandLine config last)
    (serial : first.Serial commandLine config pushes lots start) :
    last.Serial commandLine config pushes lots start := by
  induction reached with
  | refl => exact serial
  | step _ next ih => exact ih.step next

/-- Pushes that are carried out at once come to nothing that they could not come to on an engine that
meets each call by some lot. -/
theorem Reaches.pool (unused : start.Unused lots)
    (reached : (Schedule.ofPushes start pushes lots).Reaches commandLine config s) :
    (Pool.ofPushes start pushes).Reaches (Lot.conduct commandLine) config s.pool := by
  induction reached with
  | refl => exact .refl
  | step earlier next ih =>
    have serial := earlier.serial (Serial.ofPushes unused)
    cases next with
    | refuse found idle fails => exact ih.step (.refuse found idle fails)
    | begin found idle passes => exact ih.step (.begin found idle passes)
    | acquire => exact ih
    | call found engaged got pauses falls answers =>
      exact ih.step (.call found engaged (serial.owns_of_got found engaged got) pauses ⟨_, answers, rfl⟩)
    | finish found engaged got ends =>
      exact ih.step (.finish found engaged (serial.owns_of_got found engaged got) ends)

end Schedule

end DevfilePush
