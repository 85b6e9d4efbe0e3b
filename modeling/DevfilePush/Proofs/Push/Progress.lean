import DevfilePush.Proofs.Command.Announcement
import DevfilePush.Proofs.Engine.Nesting
import DevfilePush.Proofs.Push.Frame
import DevfilePush.Url.Source

/-!
# What a push tells of its progress

A push opens a step when it fetches an image, when it starts a container and when it replaces one, and the
last of these is open around the first two. However a push ends, its steps are nested and each has one
outcome. If the push fails, the steps that are open then fail one after another, and nothing else is
logged; if it succeeds, none has failed, and a container was started for each that is reported as new.

## Main definitions

* `Component.openSteps`: the steps that can be open while a container is reconciled.
* `Push.CanLeave`: the steps that can be open when a push fails.

## Main statements

* `startContainer_tells`, `keepOrReplace_tells`: one container that is started or judged.
* `Blueprint.realizeEach_tells`: containers in order.
* `Push.steps_nested`: a whole push.
-/

namespace DevfilePush

/-- The steps of starting a container, one of which is open at a time. -/
def Component.startingSteps (c : Component) : List String :=
  ["Pulling image " ++ c.image, "Starting container for " ++ c.image]

/-- The steps that can be open together while a container is reconciled, innermost first: one of those of
starting it, or the step of replacing it, by itself or around one of those. -/
def Component.openSteps (c : Component) : List (List String) :=
  let replacing := "Updating the component " ++ c.aliasName
  c.startingSteps.map ([·]) ++ [replacing] :: c.startingSteps.map ([·, replacing])

/-- How many containers a record tells to be new. -/
def ContainerRecord.starts (record : ContainerRecord) : Nat := if record.change.isNew then 1 else 0

variable {ctx : Context}

/-! ## Containers -/

/-- A step with one call in it can only be left itself. -/
theorem step_ask_tells {component : String} {deadline : Duration} {request : Request}
    {message : String} {n : Nat} (hcount : [Event.finished message].countP (·.startsContainer) = n) :
    (Script.step message (Script.ask component deadline request)).Tells (· = [message])
      fun _ m => m = n := by
  have hask : (Script.ask component deadline request).Tells (fun _ => False) fun _ m => m = 0 :=
    Script.logs_ask.tells fun _ => rfl
  refine (hask.step hcount ?_).mono (fun _ => id) ?_
  · rintro _ (rfl | ⟨⟨⟩⟩)
    rfl
  · rintro _ m ⟨_, rfl, rfl⟩
    exact Nat.zero_add n

/-- Starting a container leaves the step that fetches its image or the one that starts it. -/
theorem startContainer_tells (c : Component) (desired : Definition) :
    (startContainer ctx c desired).Tells (· ∈ c.startingSteps.map ([·])) fun _ n => n = 1 := by
  have hpull : (Script.step ("Pulling image " ++ c.image) (Script.ask ctx.component
      ctx.config.callDeadline (.pullImage c.image))).Tells (· ∈ c.startingSteps.map ([·]))
        fun _ n => n = 0 := by
    refine (step_ask_tells ?_).mono ?_ fun _ _ => id
    · simp [Event.startsContainer, String.toList_append]
    · rintro _ rfl
      simp [Component.startingSteps]
  have hstart : (Script.step ("Starting container for " ++ c.image) (Script.ask ctx.component
      ctx.config.callDeadline (.createContainer desired))).Tells (· ∈ c.startingSteps.map ([·]))
        fun _ n => n = 1 := by
    refine (step_ask_tells ?_).mono ?_ fun _ _ => id
    · simp [Event.startsContainer, String.toList_append]
    · rintro _ rfl
      simp [Component.startingSteps]
  refine hpull.bind fun _ n hn => hstart.bind fun id m hm => ?_
  exact (Script.plain_logs_quiet.note _ rfl).tells_bind fun _ => Script.tells_done (by rw [hn, hm])

/-- A container that is kept starts nothing, and one that is replaced is started within the step of
replacing it. -/
theorem keepOrReplace_tells (c : Component) (desired : Definition) (live : ListedContainer) :
    (keepOrReplace ctx c desired live).Tells (· ∈ c.openSteps) fun record n => n = record.starts := by
  have hreplace : (Script.ask ctx.component ctx.config.callDeadline (.removeContainer live.id) >>=
      fun _ => startContainer ctx c desired).Tells (· ∈ c.startingSteps.map ([·])) fun _ n => n = 1 :=
    Script.logs_ask.tells_bind fun _ => startContainer_tells c desired
  have hupdate : (Script.step ("Updating the component " ++ c.aliasName)
      (Script.ask ctx.component ctx.config.callDeadline (.removeContainer live.id) >>=
        fun _ => startContainer ctx c desired)).Tells (· ∈ c.openSteps)
          fun _ n => ∃ k, k = 1 ∧ n = k + 0 := by
    refine hreplace.step ?_ ?_
    · simp [Event.startsContainer, String.toList_append]
    · rintro steps (rfl | hsteps)
      · simp [Component.openSteps]
      · obtain ⟨step, hstep, rfl⟩ := List.mem_map.1 hsteps
        simp [Component.openSteps, hstep]
  refine Script.logs_ask.tells_bind fun actual => ?_
  by_cases hagrees : (desired.differences actual).isEmpty = true
  · simp only [hagrees, if_true]
    exact (Script.plain_logs_quiet.note _ rfl).tells_bind fun _ => Script.tells_done rfl
  · simp only [hagrees]
    refine (Script.plain_logs_quiet.note _ rfl).tells_bind fun _ =>
      hupdate.bind fun id n hn => Script.tells_done ?_
    obtain ⟨_, rfl, rfl⟩ := hn
    rfl

namespace Blueprint

variable {b : Blueprint}

/-- **One container.** The steps that can be open are those of the container, and one is started if the
record tells so. -/
theorem realizeOne_tells (c : Component) :
    (b.realizeOne ctx c).Tells (· ∈ c.openSteps) fun record n => n = record.starts := by
  have hports : (Script.notes (b.portEvents ctx c)).Logs (·.isStep = false) := by
    refine Script.logs_notes fun event h => ?_
    obtain ⟨url, -, rfl⟩ := List.mem_map.1 h
    rfl
  have hdesired : (Script.ofExcept (b.desired ctx c)).Logs (·.isStep = false) :=
    Script.plain_logs_quiet.ofExcept _
  refine hports.tells_bind fun _ => hdesired.tells_bind fun desired =>
    Script.logs_ask.tells_bind fun found => ?_
  cases Lookup.ofMatches found with
  | missing =>
    have hstarted : (startContainer ctx c desired).Tells (· ∈ c.openSteps) fun _ n => n = 1 :=
      (startContainer_tells c desired).mono (fun _ => List.mem_append_left _) fun _ _ => id
    exact hstarted.bind fun id n hn => Script.tells_done hn
  | found live => exact keepOrReplace_tells c desired live
  | conflict lives => exact Script.tells_fail

/-- **Containers in order.** -/
theorem realizeEach_tells (components : List Component) :
    (b.realizeEach ctx components).Tells (fun steps => ∃ c ∈ components, steps ∈ c.openSteps)
      fun records n => n = records.countP (·.change.isNew) := by
  induction components with
  | nil => exact Script.tells_done rfl
  | cons c rest ih =>
    have hone : (b.realizeOne ctx c).Tells (fun steps => ∃ c' ∈ c :: rest, steps ∈ c'.openSteps)
        fun record n => n = record.starts :=
      (realizeOne_tells c).mono (fun _ hsteps => ⟨c, List.mem_cons_self, hsteps⟩) fun _ _ => id
    have hrest : (b.realizeEach ctx rest).Tells (fun steps => ∃ c' ∈ c :: rest, steps ∈ c'.openSteps)
        fun records n => n = records.countP (·.change.isNew) := by
      refine ih.mono ?_ fun _ _ => id
      rintro steps ⟨c', hc', hsteps⟩
      exact ⟨c', List.mem_cons_of_mem _ hc', hsteps⟩
    refine hone.bind fun record n hn => ?_
    refine (Script.plain_logs_quiet.note _ rfl).tells_bind fun _ =>
      hrest.bind fun records m hm => Script.tells_done ?_
    rw [hn, hm, List.countP_cons, Nat.add_comm]
    rfl

end Blueprint

/-! ## A push -/

/-- Looking for the URLs opens no step. -/
theorem UrlSource.listing_quiet (source : UrlSource) (files : FileTree) (directory : String) :
    ∀ event ∈ (source.listing files directory).events, event.isStep = false := by
  cases source with
  | listed | failing => simp [listing]
  | envFile path =>
    simp only [listing, loadEnvFile]
    split
    · simp [Event.isStep]
    · simp
    · simp
    · split <;> simp

namespace Push

variable {p : Push} {config : ValidConfig} {listing : UrlListing}

/-- What a push can leave open: steps of one of its containers. -/
def CanLeave (p : Push) (steps : List String) : Prop := ∃ c ∈ p.components, steps ∈ c.openSteps

/-- The first part of a push starts as many containers as it reports to be new. -/
theorem reconciliation_tells (quiet : ∀ event ∈ listing.events, event.isStep = false) :
    (p.reconciliation config listing).Tells p.CanLeave fun report n => n = report.newAliases.length := by
  have hresolve : (resolveVolumes (p.context config) p.components p.commands.run.isSome).Logs
      (·.isStep = false) := Script.plain_logs_quiet.resolveVolumes (fun _ _ => Script.logs_ask) _ _
  refine (Script.plain_logs_quiet.note _ rfl).tells_bind fun _ =>
    (Script.logs_notes quiet).tells_bind fun _ =>
    (Script.plain_logs_quiet.ofExcept _).tells_bind fun urls =>
    hresolve.tells_bind fun names =>
    (Script.plain_logs_quiet.ofExcept _).tells_bind fun _ =>
    (Blueprint.realizeEach_tells p.components).bind fun records n hn => Script.tells_done ?_
  rw [hn, ContainerReport.newAliases, List.length_map, List.countP_eq_length_filter]
  rfl

/-- The second part of a push has no steps. -/
theorem execution_logs_quiet (containers : ContainerReport) :
    (p.execution config containers).Logs (·.isStep = false) := by
  have hplain := Script.plain_logs_quiet
  exact hplain.bind Script.logs_ask fun _ =>
    hplain.bind (hplain.runAll fun _ _ _ _ => Command.execute_logs rfl) fun _ =>
      hplain.bind (hplain.note _ rfl) fun _ => hplain.done _

/-- The second part of a push starts no container and reports those of the first part. -/
theorem execution_tells (containers : ContainerReport) :
    (p.execution config containers).Tells p.CanLeave
      fun report n => n = 0 ∧ report.containers = containers := by
  intro engine before after trace verdict run
  have hquiet : (p.execution config containers).Tells p.CanLeave fun _ n => n = 0 :=
    (execution_logs_quiet containers).tells fun _ => rfl
  obtain ⟨nested, told⟩ := hquiet run
  refine ⟨nested, ?_⟩
  cases verdict with
  | ok report =>
    obtain ⟨-, -, -, -, -, hcontainers, -⟩ := runs_execution_ok run
    exact ⟨told.1, told.2, hcontainers⟩
  | error e => exact told

theorem script_tells (quiet : ∀ event ∈ listing.events, event.isStep = false) :
    (p.script config listing).Tells p.CanLeave
      fun report n => n = report.containers.newAliases.length := by
  refine (Script.plain_logs_quiet.ofExcept _).tells_bind fun _ =>
    (reconciliation_tells quiet).bind fun containers n hn =>
    (execution_tells containers).mono (fun _ => id) ?_
  rintro report m ⟨rfl, rfl⟩
  exact hn

variable {source : UrlSource} {files : FileTree} {engine : Conduct} {before after : Holdings}
  {trace : List Happening} {verdict : Except PushError PushReport}

/-- **Progress.** However a push ends, its steps are nested. If it succeeds, no step has failed and a
container was started for each that it reports as new; if it fails, no step has failed before it does, and
the log ends with the failure of the steps that are open then, from the innermost to the outermost: of
one that fetches an image or starts a container, of one that replaces a container, or of the first within
the second. -/
theorem steps_nested
    (run : (p.script config (source.listing files p.directory)).Runs engine before trace verdict after) :
    Event.Nested (Happening.log trace) ∧
      (∀ report, verdict = .ok report →
        (∀ event ∈ Happening.log trace, event.isFailure = false) ∧
          (Happening.log trace).countP (·.startsContainer) = report.containers.newAliases.length) ∧
      (∀ error, verdict = .error error → ∃ front steps, (steps = [] ∨ p.CanLeave steps) ∧
        Event.Leaves front steps ∧ Happening.log trace = front ++ steps.map .failed) := by
  obtain ⟨nested, told⟩ := script_tells (source.listing_quiet files p.directory) run
  refine ⟨nested, ?_, ?_⟩
  · rintro report rfl
    exact told
  · rintro error rfl
    exact told

/-- The URLs of the sample push, as they are given. -/
def sampleSource : UrlSource :=
  .listed [⟨"front", 8080, 40000, none⟩, ⟨"back", 9090, 40001, some "web"⟩]

/-- A push that is not answered in time when it starts a container in another's place gives up both
steps. -/
theorem steps_nested_sample :
    Event.Nested (Happening.log (sampleCutCourse (.expired true)).happenings) ∧ ∃ front,
      Event.Leaves front ["Starting container for postgres:17", "Updating the component db"] ∧
      Happening.log (sampleCutCourse (.expired true)).happenings =
        front ++ [.failed "Starting container for postgres:17", .failed "Updating the component db"] := by
  have run : ((samplePair "postgres:17").script .standard (sampleSource.listing .empty "/shop")).Runs
      MemoryEngine.faulty samplePairCourse.engine.holdings (sampleCutCourse (.expired true)).happenings
      (sampleCutCourse (.expired true)).verdict (sampleCutCourse (.expired true)).engine.holdings :=
    MemoryEngine.runs_follow_faulty (MemoryEngine.numbered_empty.follow _ _) rfl
  have hfailures : (Happening.log (sampleCutCourse (.expired true)).happenings).filter
      Event.isFailure = ["Starting container for postgres:17", "Updating the component db"].map .failed := by
    decide
  obtain ⟨nested, -, fails⟩ := steps_nested run
  obtain ⟨front, steps, -, leaves, hlog⟩ := fails _ rfl
  rw [hlog, leaves.filter_isFailure] at hfailures
  obtain rfl := (List.map_injective_iff.2 fun _ _ => Event.failed.inj) hfailures
  exact ⟨nested, front, leaves, hlog⟩

end Push

end DevfilePush
