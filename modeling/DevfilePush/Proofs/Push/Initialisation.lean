import DevfilePush.Proofs.Command.Announcement
import DevfilePush.Proofs.Push.Commands
import DevfilePush.Simulation.History

/-!
# When a component is initialised

A push runs the init command if it has made a container, and knows nothing of the pushes before it. So
a component is initialised by the very push that makes its containers or not at all: if that push fails
after it has made one and before the init command has ended, every later push finds the containers as
they have to be and passes the init command over.

## Main definitions

* `Push.Makes`, `Push.Initialises`: a container is made, and the init command ends with success after it.
* `Initialised`: the init command has ended with success since a container was made last.

## Main statements

* `Push.makes_of_initialises`: no push initialises what others have made.
* `Push.initialises_of_makes`: a push that succeeds initialises what it makes.
* `initialised_iff`: what becomes of a component over any pushes.
* `not_always_initialised`: that a push succeeds does not mean that the component is initialised.
-/

namespace DevfilePush

/-- The words that were executed by a call that was replied, with their exit code. -/
def Happening.exit? : Happening → Option (List String × Int32)
  | .answered (.exec _ argv _) (.reply code) => some (argv, code)
  | _ => none

namespace Push

/-- A container of a declared alias is there that was not there before. -/
def Makes (p : Push) (before after : Holdings) : Prop :=
  ∃ c ∈ p.components, ∃ r ∈ after.ofAlias p.component c.aliasName, r ∉ before.containers

/-- The init command has ended with success, and no container was asked for after that. -/
def Initialises (p : Push) (trace : List Happening) (init : Command) : Prop :=
  ∃ earlier id attach later, trace = earlier ++ (init.initiation p.component id attach ++ later) ∧
    Happening.creates later = false

variable {p : Push} {config : ValidConfig} {listing : UrlListing} {engine : Conduct}
  {before after : Holdings} {trace : List Happening} {containers : ContainerReport} {init : Command}

/-- The words of the init command have ended with success. -/
theorem Initialises.exited (initialises : p.Initialises trace init) :
    (init.shellWords, 0) ∈ trace.filterMap (·.exit?) := by
  obtain ⟨earlier, id, attach, later, rfl, -⟩ := initialises
  simp [Command.initiation, Happening.exit?]

/-- A push that reconciles has made a container if and only if not all were kept. -/
theorem makes_iff (honest : engine.Honest) (keepsIds : engine.KeepsIds) (ids : before.DistinctIds)
    (run : (p.reconciliation config listing).Runs engine before trace (.ok containers) after) :
    p.Makes before after ↔ containers.allKept = false := by
  constructor
  · rintro ⟨c, -, r, hr, hnew⟩
    by_contra hkept
    rw [Bool.not_eq_false] at hkept
    -- where all containers are kept, none was asked for
    have hquiet : Happening.creates trace = false := by
      rw [reconciliation_creates honest run, hkept, Bool.not_true]
    exact hnew (run.containers_subset honest hquiet (Holdings.mem_ofAlias.1 hr).1)
  · intro hkept
    obtain ⟨urls, names, -, -, -, -, settled⟩ := reconciliation_ok honest keepsIds ids run
    have hnew : ∃ record ∈ containers.records, record.change.isNew = true := by
      simpa [ContainerReport.allKept] using hkept
    obtain ⟨record, hrecord, hisNew⟩ := hnew
    obtain ⟨c, hc, desired, -, halias, tells⟩ :=
      exists_of_forall₂ settled.containers.flip record hrecord
    obtain ⟨r, hr, hnew⟩ := tells.exists_new hisNew
    rw [halias] at hr
    exact ⟨c, hc, r, hr, hnew⟩

/-- Where all containers were kept, the second part of a push announces no init command. -/
theorem execution_logs (kept : containers.allKept = true) :
    (p.execution config containers).Logs (·.announcesInit = false) := by
  intro answer
  cases answer with
  | reply live =>
    rw [kept]
    exact (CommandSelection.runAll_logs p.commands).bind fun _ => ⟨rfl, trivial⟩
  | refused | expired => trivial

/-- **Nothing is initialised later.** A push in which the init command ends with success has made a
container. -/
theorem makes_of_initialises (honest : engine.Honest) (keepsIds : engine.KeepsIds)
    (ids : before.DistinctIds) {verdict : Except PushError PushReport}
    (run : (p.script config listing).Runs engine before trace verdict after)
    (initialises : p.Initialises trace init) : p.Makes before after := by
  obtain ⟨earlier, id, attach, later, htrace, -⟩ := initialises
  have hexecuted : Happening.executed trace ≠ [] := by
    rw [htrace]
    simp [Happening.executed, Command.initiation, Happening.call?, Request.words?]
  rcases Script.runs_bind_iff.1 run with ⟨error, rfl, hcheck⟩ | ⟨⟨⟩, m₁, t₁, t₂, hcheck, hsession, rfl⟩
  · obtain ⟨rfl, -⟩ := Script.runs_ofExcept.1 hcheck
    exact absurd rfl hexecuted
  obtain ⟨rfl, -, rfl⟩ := Script.runs_ofExcept.1 hcheck
  rw [List.nil_append] at htrace hexecuted
  rcases Script.runs_bind_iff.1 hsession with
    ⟨error, rfl, hfirst⟩ | ⟨containers, settled, front, own, hfirst, hsecond, rfl⟩
  · exact absurd (Happening.executed_eq_nil (hfirst.requests reconciliation_asks)) hexecuted
  rw [execution_unchanged honest hsecond, makes_iff honest keepsIds ids hfirst]
  have hquiet := Happening.executed_eq_nil (hfirst.requests reconciliation_asks)
  by_contra hkept
  rw [Bool.not_eq_false] at hkept
  have hlogs := hsecond.logged (execution_logs hkept)
  -- the second part begins with a listing, and the init command is announced after it
  obtain ⟨answer, middle, rest, -, rfl, -⟩ := hsecond
  have hannounced := Command.announced_of_initiation hquiet (by rfl) htrace
  have hnone := hlogs _ (List.mem_cons_of_mem _ hannounced)
  cases hnone

/-- **A push initialises what it makes.** If a push succeeds, has an init command and has made a
container, the init command has ended with success after that. -/
theorem initialises_of_makes (honest : engine.Honest) (keepsIds : engine.KeepsIds)
    (ids : before.DistinctIds) {report : PushReport}
    (run : (p.script config listing).Runs engine before trace (.ok report) after)
    (declared : p.commands.init = some init) (makes : p.Makes before after) :
    p.Initialises trace init := by
  obtain ⟨-, containers, settled, front, own, hfirst, hsecond, rfl⟩ := runs_script_ok.1 run
  rw [execution_unchanged honest hsecond, makes_iff honest keepsIds ids hfirst] at makes
  have hquiet := execution_creates hsecond
  obtain ⟨live, middle, own, -, hcommands, -, rfl⟩ := runs_execution_ok hsecond
  rw [makes] at hcommands
  obtain ⟨id, rest, rfl⟩ := CommandSelection.runAll_initiation declared hcommands
  refine ⟨front ++ [.answered (.listContainers (Labels.ofComponent p.component)) (.reply live)], id,
    config.config.showOutput, rest ++ [.logged (.pushed p.component containers.newAliases.length)],
    ?_, ?_⟩
  · simp only [List.append_assoc, List.cons_append, List.nil_append]
    rfl
  · simp only [Happening.creates_append, Happening.creates_answered, Bool.or_eq_false_iff] at hquiet ⊢
    exact ⟨hquiet.2.1.2, rfl⟩

end Push

/-! ## Pushes one after another -/

/-- Whether a push made a container. -/
def Round.Makes (round : Round) : Prop := round.push.Makes round.before round.after

/-- Whether a push initialised what it made. -/
def Round.Initialises (round : Round) (init : Command) : Prop :=
  round.push.Initialises round.happenings init

/-- The init command has ended with success since a container was made last, in a push that made none or
after the last one in a push that made some. -/
def Initialised (init : Command) : List Round → Prop
  | [] => True
  | round :: earlier => round.Initialises init ∨ ¬ round.Makes ∧ Initialised init earlier

namespace History

variable {engine : Conduct} {config : ValidConfig} {component : String} {start after : Holdings}
  {rounds : List Round}

theorem distinctIds (history : History engine config component start rounds after)
    (keepsIds : engine.KeepsIds) (ids : start.DistinctIds) : after.DistinctIds := by
  induction history with
  | start => exact ids
  | push past _ run ih => exact run.distinctIds keepsIds ih

/-- Each push is a run that began where ids were distinct. -/
theorem runs_of_mem (history : History engine config component start rounds after)
    (keepsIds : engine.KeepsIds) (ids : start.DistinctIds) {round : Round} (h : round ∈ rounds) :
    round.before.DistinctIds ∧ (round.push.script config round.listing).Runs engine round.before
      round.happenings round.verdict round.after := by
  induction history with
  | start => cases h
  | push past _ run ih =>
    rcases List.mem_cons.1 h with rfl | h
    · exact ⟨past.distinctIds keepsIds ids, run⟩
    · exact ih h

end History

/-- What holds of the first member with a property in a longer list, if there is one. -/
theorem forall_first_cons_iff {α : Type} {has holds : α → Prop} {x : α} {xs : List α} :
    (∀ front y rest, x :: xs = front ++ y :: rest → (∀ z ∈ front, ¬ has z) → has y → holds y) ↔
      (has x → holds x) ∧ (¬ has x → ∀ front y rest, xs = front ++ y :: rest →
        (∀ z ∈ front, ¬ has z) → has y → holds y) := by
  constructor
  · intro h
    refine ⟨h [] x xs rfl (by simp), fun hx front y rest hsplit hfront => ?_⟩
    exact h (x :: front) y rest (congrArg _ hsplit) (List.forall_mem_cons.2 ⟨hx, hfront⟩)
  · rintro ⟨hx, hxs⟩ front y rest hsplit hfront
    rcases List.cons_eq_append_iff.1 hsplit with ⟨rfl, hcons⟩ | ⟨front, rfl, htail⟩
    · obtain ⟨rfl, -⟩ := List.cons.inj hcons
      exact hx
    · rw [List.forall_mem_cons] at hfront
      exact hxs hfront.1 front y rest htail hfront.2

/-- Where no push initialises anything that it has not made, it depends on the push that made a container
last. -/
theorem initialised_iff_last {init : Command} {rounds : List Round}
    (own : ∀ round ∈ rounds, round.Initialises init → round.Makes) :
    Initialised init rounds ↔ ∀ newer maker older, rounds = newer ++ maker :: older →
      (∀ round ∈ newer, ¬ round.Makes) → maker.Makes → maker.Initialises init := by
  induction rounds with
  | nil => simp [Initialised]
  | cons round earlier ih =>
    rw [List.forall_mem_cons] at own
    rw [forall_first_cons_iff, ← ih own.2, Initialised]
    by_cases hmakes : round.Makes
    · simp [hmakes]
    · simp [hmakes, mt own.1 hmakes]

/-- **Initialisation.** Over any pushes of a component, whatever becomes of them, the component is
initialised if and only if the push that made a container last has initialised it itself; and a push that
succeeds and has an init command initialises what it makes. -/
theorem initialised_iff {engine : Conduct} {config : ValidConfig} {component : String}
    {start after : Holdings} {rounds : List Round} (honest : engine.Honest)
    (keepsIds : engine.KeepsIds) (ids : start.DistinctIds)
    (history : History engine config component start rounds after) (init : Command) :
    (Initialised init rounds ↔ ∀ newer maker older, rounds = newer ++ maker :: older →
      (∀ round ∈ newer, ¬ round.Makes) → maker.Makes → maker.Initialises init) ∧
    ∀ round ∈ rounds, ∀ report, round.verdict = .ok report →
      round.push.commands.init = some init → round.Makes → round.Initialises init := by
  constructor
  · refine initialised_iff_last fun round hround hinitialises => ?_
    obtain ⟨hids, run⟩ := history.runs_of_mem keepsIds ids hround
    exact Push.makes_of_initialises honest keepsIds hids run hinitialises
  · intro round hround report hverdict declared makes
    obtain ⟨hids, run⟩ := history.runs_of_mem keepsIds ids hround
    rw [hverdict] at run
    exact Push.initialises_of_makes honest keepsIds hids run declared makes

/-! ## Two pushes -/

open Push (sample sampleComponent sampleListing)

/-- The round of a push on an engine in memory, where some fates befall its calls. -/
def Round.follow (p : Push) (listing : UrlListing) (e : MemoryEngine) (fates : List Fate) : Round :=
  let course := (p.script .standard listing).follow e fates
  ⟨p, listing, e.holdings, course.happenings, course.verdict, course.engine.holdings⟩

/-- A push on an engine that holds nothing, where some fates befall its calls, and the same push again. -/
def sampleRounds (fates : List Fate) : List Round :=
  [.follow sample sampleListing ((sample.script .standard sampleListing).follow .empty fates).engine [],
    .follow sample sampleListing .empty fates]

/-- A course against the engine in memory continues a history. -/
theorem History.follow {p : Push} {start : Holdings} {earlier : List Round} {e : MemoryEngine}
    (numbered : e.Numbered)
    (past : History MemoryEngine.faulty .standard p.component start earlier e.holdings)
    (listing : UrlListing) (fates : List Fate) :
    History MemoryEngine.faulty .standard p.component start (.follow p listing e fates :: earlier)
      ((p.script .standard listing).follow e fates).engine.holdings := by
  have run : (p.script .standard listing).Runs MemoryEngine.faulty e.holdings
      ((p.script .standard listing).follow e fates).happenings
      ((p.script .standard listing).follow e fates).verdict
      ((p.script .standard listing).follow e fates).engine.holdings :=
    MemoryEngine.runs_follow_faulty numbered rfl
  exact .push past rfl run

theorem history_sampleRounds (fates : List Fate) :
    ∃ after, History MemoryEngine.faulty .standard "shop" ⟨[], []⟩ (sampleRounds fates) after := by
  have first : History MemoryEngine.faulty .standard sample.component ⟨[], []⟩ _ _ :=
    .follow MemoryEngine.numbered_empty .start sampleListing fates
  exact ⟨_, .follow (MemoryEngine.numbered_empty.follow _ _) first sampleListing []⟩

/-- The init command of the pushes. -/
def sampleInit : Command := ⟨"setup", "web", "make deps", none, .init, true, none⟩

/-- After two pushes that succeed, the component is initialised. -/
theorem initialised_iff_sample : Initialised sampleInit (sampleRounds []) := by
  obtain ⟨after, history⟩ := history_sampleRounds []
  obtain ⟨hlast, hown⟩ := initialised_iff (MemoryEngine.honest_conduct _)
    (MemoryEngine.keepsIds_conduct _) (by decide) history sampleInit
  have hok : ∀ round ∈ sampleRounds [], ∃ report, round.verdict = .ok report ∧
      round.push.commands.init = some sampleInit := by
    simp only [sampleRounds, List.forall_mem_cons]
    exact ⟨⟨_, rfl, rfl⟩, ⟨_, rfl, rfl⟩, by simp⟩
  refine hlast.2 fun newer maker older hsplit _ hmakes => ?_
  have hmaker : maker ∈ sampleRounds [] := by simp [hsplit]
  obtain ⟨report, hverdict, hdeclared⟩ := hok maker hmaker
  exact hown maker hmaker report hverdict hdeclared hmakes

/-- What befalls the calls of a push whose init command fails. The ten before it supply the volumes, start
the container and list it. -/
def sampleFailing : List Fate := .replicate 10 (.served 0) ++ [.served 1]

/-- Where the init command fails in the push that makes the container, the same push again succeeds and
passes the init command over. -/
theorem not_always_initialised :
    ¬ ∀ {engine : Conduct} {config : ValidConfig} {component : String} {start after : Holdings}
      {round : Round} {earlier : List Round} {init : Command} {report : PushReport},
      engine.Honest → engine.KeepsIds → start.DistinctIds →
      History engine config component start (round :: earlier) after → round.verdict = .ok report →
      round.push.commands.init = some init → Initialised init (round :: earlier) := by
  intro h
  obtain ⟨after, history⟩ := history_sampleRounds sampleFailing
  have hinitialised : Initialised sampleInit (sampleRounds sampleFailing) :=
    h (MemoryEngine.honest_conduct _) (MemoryEngine.keepsIds_conduct _) (by decide) history (by rfl)
      (by rfl)
  rcases hinitialised with hsecond | ⟨-, hfirst | ⟨hnone, -⟩⟩
  · exact absurd hsecond.exited (by decide)
  · exact absurd hfirst.exited (by decide)
  · exact hnone ⟨sampleComponent, by decide, _, List.mem_singleton_self _, by decide⟩

end DevfilePush
