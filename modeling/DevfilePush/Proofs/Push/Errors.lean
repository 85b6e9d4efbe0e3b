import DevfilePush.Proofs.Container.Injection
import DevfilePush.Proofs.Engine.Ends
import DevfilePush.Proofs.Push.Repetition

/-!
# Which errors a push can end with

A push that refuses what it is asked for does so before it asks the engine for anything, and the first
of its checks that fails decides how. Once the checks have passed, nothing is left that could be wrong
with the declarations: every volume that a definition mounts has been resolved, and every container that
a command names has been reconciled. So the errors that can still come are about duplicates, stale URLs,
calls and commands.

## Main definitions

* `PushError.Late`: an error that can come once the checks have passed.
* `PushError.FromAnswer`: one that an answer of the engine can give rise to.
* `VolumeNames.Covers`: a volume is resolved wherever a definition mounts one.
* `Push.failures`: what the checks that fail say, in the order of the checks.

## Main statements

* `resolveVolumes_ends`, `Blueprint.realize_ends`, `CommandSelection.runAll_ends`: the parts of a push.
* `Push.refused_first`: when a push is refused, and that no other error is of this category.
-/

namespace DevfilePush

/-- An error about duplicates, a stale URL, a call or a command. -/
def PushError.Late (e : PushError) : Prop := e.category ≠ .configuration ∧ e.category ≠ .other

/-- An error that an answer of the engine can give rise to: one about duplicates, a call or a command. -/
def PushError.FromAnswer (e : PushError) : Prop :=
  e.category = .conflict ∨ e.category = .runtime ∨ e.category = .commandExec

/-- What an answer gives rise to comes after the checks. -/
theorem PushError.FromAnswer.late {e : PushError} (h : e.FromAnswer) : e.Late := by
  unfold PushError.Late
  rcases h with h | h | h <;> rw [h] <;> exact ⟨nofun, nofun⟩

variable {ctx : Context}

/-- A call to the engine ends with a reply or with an error that tells of the answer. -/
theorem ask_ends (request : Request) :
    (Script.ask ctx.component ctx.config.callDeadline request).Ends PushError.FromAnswer
      fun _ => True :=
  Script.ends_ask (fun _ => .inr (.inl rfl)) (.inr (.inl rfl))

/-! ## Volumes -/

/-- A volume is resolved for every mount that is declared, and for the supervisor if it is needed. -/
structure VolumeNames.Covers (names : VolumeNames) (components : List Component)
    (needsSupervisor : Bool) : Prop where
  storage : ∀ c ∈ components, ∀ m ∈ c.volumeMounts, ∃ name, names.storage.get? m.name = some name
  supervisor : needsSupervisor = true → ∃ name, names.supervisor = some name

theorem resolveVolume_ends (role : VolumeRole) :
    (resolveVolume ctx role).Ends PushError.FromAnswer fun _ => True := by
  have hlook : (lookupVolume ctx role).Ends PushError.FromAnswer fun _ => True :=
    (ask_ends _).bind fun _ _ => trivial
  refine hlook.bind fun looked _ => ?_
  cases looked with
  | found volume => exact trivial
  | conflict volumes => exact .inl rfl
  | missing => exact (ask_ends _).bind fun _ _ => trivial

/-- The names that were resolved before stay, and the given ones are added. -/
theorem resolveStorage_ends (resolved : SortedMap String String) (names : List String) :
    (resolveStorage ctx resolved names).Ends PushError.FromAnswer fun storage =>
      ∀ k, k ∈ names ∨ (∃ name, resolved.get? k = some name) → ∃ name, storage.get? k = some name := by
  induction names generalizing resolved with
  | nil => exact fun k hk => hk.resolve_left List.not_mem_nil
  | cons name rest ih =>
    refine (resolveVolume_ends _).bind fun volume _ => (ih _).mono (fun _ => id) ?_
    intro storage hstorage k hk
    apply hstorage k
    rw [SortedMap.get?_insert]
    by_cases hname : k = name
    · exact .inr ⟨_, if_pos hname⟩
    · rw [if_neg hname]
      exact hk.imp_left fun h => (List.mem_cons.1 h).resolve_left hname

/-- **Volumes.** However the calls for them are answered, volumes are resolved wherever a definition
mounts one, or an error comes that tells of an answer. -/
theorem resolveVolumes_ends (components : List Component) (needsSupervisor : Bool) :
    (resolveVolumes ctx components needsSupervisor).Ends PushError.FromAnswer
      (·.Covers components needsSupervisor) := by
  have hsupervisor : (resolveSupervisor ctx needsSupervisor).Ends PushError.FromAnswer fun name? =>
      needsSupervisor = true → ∃ name, name? = some name := by
    cases needsSupervisor with
    | false => exact nofun
    | true => exact (resolveVolume_ends _).bind fun volume _ _ => ⟨volume.name, rfl⟩
  refine (resolveVolume_ends _).bind fun _ _ => hsupervisor.bind fun name? hname =>
    (resolveStorage_ends _ _).bind fun storage hstorage => ⟨?_, hname⟩
  intro c hc m hm
  exact hstorage m.name (.inl (mem_storageNames.2 ⟨c, hc, m, hm, rfl⟩))

/-! ## Containers -/

namespace Blueprint

variable {b : Blueprint} {c : Component} {desired : Definition}

/-- Where volumes are resolved, only a stale URL keeps a definition from being built. -/
theorem desired_covered (covers : b.volumes.Covers b.components b.runCommand.isSome)
    (hc : c ∈ b.components) {ports : PortMap}
    (hports : PortMap.ofUrls ctx.component c b.urls ctx.config.hostIp = .ok ports) :
    ∃ desired, b.desired ctx c = .ok desired := by
  have hbuild : ∃ desired, Definition.build (b.surroundings ctx) c ports = .ok desired := by
    refine Definition.exists_build_iff.2 ⟨covers.storage c hc, fun run targets => covers.supervisor ?_⟩
    exact Option.isSome_iff_exists.2 ⟨run, targets.1⟩
  obtain ⟨desired, hdesired⟩ := hbuild
  exact ⟨desired, desired_ok_iff.2 ⟨ports, hports, hdesired⟩⟩

/-- The only error in building a definition, where volumes are resolved, is late. -/
theorem late_of_desired_error (covers : b.volumes.Covers b.components b.runCommand.isSome)
    (hc : c ∈ b.components) {error : PushError} (herror : b.desired ctx c = .error error) :
    error.Late := by
  cases hports : PortMap.ofUrls ctx.component c b.urls ctx.config.hostIp with
  | ok ports =>
    obtain ⟨desired, hdesired⟩ := desired_covered covers hc hports
    rw [hdesired] at herror
    cases herror
  | error stale =>
    have hsame : stale = error := by
      unfold desired at herror
      rw [hports] at herror
      exact Except.error.inj herror
    subst hsame
    unfold PortMap.ofUrls at hports
    split at hports
    · obtain rfl := Except.error.inj hports
      exact ⟨nofun, nofun⟩
    · cases hports

end Blueprint

section Containers

variable {errors : PushError → Prop} (answered : ∀ e, e.FromAnswer → errors e)

include answered

theorem ask_ends_in (request : Request) :
    (Script.ask ctx.component ctx.config.callDeadline request).Ends errors fun _ => True :=
  (ask_ends request).mono answered fun _ => id

theorem startContainer_ends (c : Component) (desired : Definition) :
    (startContainer ctx c desired).Ends errors fun _ => True :=
  ((ask_ends_in answered _).step _).bind fun _ _ => ((ask_ends_in answered _).step _).bind
    fun _ _ => trivial

theorem keepOrReplace_ends (c : Component) (desired : Definition) (live : ListedContainer) :
    (keepOrReplace ctx c desired live).Ends errors fun _ => True := by
  refine (ask_ends_in answered _).bind fun actual _ => ?_
  have hreplace : (Script.step ("Updating the component " ++ c.aliasName)
      (Script.ask ctx.component ctx.config.callDeadline (.removeContainer live.id) >>=
        fun _ => startContainer ctx c desired)).Ends errors fun _ => True :=
    ((ask_ends_in answered _).bind fun _ _ => startContainer_ends answered c desired).step _
  by_cases hagrees : (desired.differences actual).isEmpty = true
  · simp only [hagrees, if_true]
    trivial
  · simp only [hagrees]
    exact hreplace.bind fun _ _ => trivial

namespace Blueprint

variable {b : Blueprint}

/-- A container that is reconciled has a definition to be running. -/
theorem realizeOne_ends {c : Component}
    (undesired : ∀ error, b.desired ctx c = .error error → errors error) :
    (b.realizeOne ctx c).Ends errors fun _ => ∃ desired, b.desired ctx c = .ok desired := by
  refine (Script.ends_notes _).bind fun _ _ =>
    (Script.ends_ofExcept (P := fun desired => b.desired ctx c = .ok desired) (fun _ => id)
      undesired).bind fun desired hdesired => (ask_ends_in answered _).bind fun found _ => ?_
  cases Lookup.ofMatches found with
  | missing => exact (startContainer_ends answered c desired).bind fun _ _ => ⟨desired, hdesired⟩
  | found live =>
    exact (keepOrReplace_ends answered c desired live).mono (fun _ => id) fun _ _ =>
      ⟨desired, hdesired⟩
  | conflict lives => exact answered _ (.inl rfl)

theorem realizeEach_ends {components : List Component}
    (undesired : ∀ c ∈ components, ∀ error, b.desired ctx c = .error error → errors error) :
    (b.realizeEach ctx components).Ends errors fun _ =>
      ∀ c ∈ components, ∃ desired, b.desired ctx c = .ok desired := by
  induction components with
  | nil => exact List.forall_mem_nil _
  | cons c rest ih =>
    rw [List.forall_mem_cons] at undesired
    exact (realizeOne_ends answered undesired.1).bind fun _ hc =>
      (ih undesired.2).bind fun _ hrest => List.forall_mem_cons.2 ⟨hc, hrest⟩

end Blueprint

end Containers

/-- **Containers.** Where the containers are accepted and volumes resolved, only a late error can come. -/
theorem Blueprint.realize_ends {b : Blueprint} (accepted : checkComponents b.components = .ok ())
    (covers : b.volumes.Covers b.components b.runCommand.isSome) :
    (b.realize ctx).Ends PushError.Late fun _ => True := by
  have hcheck : (Script.ofExcept (checkComponents b.components)).Ends PushError.Late fun _ => True := by
    rw [accepted]
    trivial
  exact hcheck.bind fun _ _ => (realizeEach_ends (fun _ => PushError.FromAnswer.late) fun c hc _ =>
    late_of_desired_error covers hc).bind fun _ _ => trivial

/-! ## Commands -/

section Commands

variable {command : Command} {container : ListedContainer}

theorem execute_ends (argv : List String) :
    (command.execute ctx container argv).Ends PushError.FromAnswer fun _ => True := by
  intro answer
  cases answer with
  | reply code =>
    change (command.judge code).Ends _ _
    unfold Command.judge
    by_cases hcode : isSuccess code = true
    · rw [if_pos hcode]
      trivial
    · rw [if_neg hcode]
      exact .inr (.inr rfl)
  | refused => exact .inr (.inr rfl)
  | expired => exact .inr (.inl rfl)

/-- Scripts that end with such errors only, in sequence, end so too. -/
theorem composes_ends :
    Script.Composes fun _ s => s.Ends PushError.FromAnswer fun _ => True where
  done _ := trivial
  bind hs hf := hs.bind fun value _ => hf value

theorem run_ends {group : CommandGroup} {allKept : Bool} {containers : List ListedContainer}
    {errors : PushError → Prop} (answered : ∀ e, e.FromAnswer → errors e)
    (target : ∀ error, command.target ctx containers = .error error → errors error) :
    (command.run ctx group allKept containers).Ends errors fun _ => True := by
  unfold Command.run
  cases command.actions group allKept with
  | nil => trivial
  | cons action rest =>
    refine (Script.ends_ofExcept (P := fun _ => True) (fun _ _ => trivial) target).bind
      fun container _ => ?_
    exact (composes_ends.actEach (fun argv => execute_ends argv) trivial trivial group _).mono answered
      fun _ => id

theorem runEach_ends {allKept : Bool} {containers : List ListedContainer}
    {errors : PushError → Prop} (answered : ∀ e, e.FromAnswer → errors e)
    {commands : List (CommandGroup × Command)}
    (targets : ∀ gc ∈ commands, ∀ error, gc.2.target ctx containers = .error error → errors error) :
    (CommandSelection.runEach ctx allKept containers commands).Ends errors fun _ => True := by
  induction commands with
  | nil => trivial
  | cons gc rest ih =>
    rw [List.forall_mem_cons] at targets
    exact (run_ends answered targets.1).bind fun _ _ => (ih targets.2).bind fun _ _ => trivial

/-- **Commands.** Where there are any, they end with errors that tell of answers, or with one of a command
that has no container. -/
theorem CommandSelection.runAll_ends {s : CommandSelection} {allKept : Bool}
    {containers : List ListedContainer} {errors : PushError → Prop} (answered : ∀ e, e.FromAnswer → errors e)
    (nonempty : s.isEmpty = false)
    (targets : ∀ gc ∈ s.commands, ∀ error, gc.2.target ctx containers = .error error → errors error) :
    (runAll ctx s allKept containers).Ends errors fun _ => True := by
  unfold runAll
  rw [if_neg (by simp [nonempty])]
  exact (runEach_ends answered targets).bind fun _ _ => trivial

end Commands

namespace Push

variable {p : Push} {config : ValidConfig} {listing : UrlListing} {engine : Conduct}
  {before after : Holdings} {trace : List Happening} {verdict : Except PushError PushReport}

/-! ## What is refused -/

/-- What the checks that fail say: those of the containers, of the commands and of their containers, and
then the loading of the URLs. -/
def failures (p : Push) (listing : UrlListing) : List PushError :=
  let containers := checkComponents p.components
  let commands : Except PushError Unit :=
    if p.commands.isEmpty then .error (.misconfigured .noCommands) else .ok ()
  let targets := (p.commands.checkTargets p.components).mapError PushError.misconfigured
  let urls := (listing.urls.mapError fun e => .urlsUnavailable p.component e.message).map fun _ => ()
  [containers, commands, targets, urls].filterMap fun
    | .ok () => none
    | .error error => some error

/-- The first check that fails decides: one of those that come first, or else the loading of the URLs. -/
theorem head?_failures : (p.failures listing).head? =
    match p.check, listing.urls with
    | .error error, _ => some error
    | .ok (), .error e => some (.urlsUnavailable p.component e.message)
    | .ok (), .ok _ => none := by
  unfold failures check
  cases checkComponents p.components with
  | error e => rfl
  | ok =>
    by_cases hempty : p.commands.isEmpty = true
    · simp only [hempty, if_true]
      rfl
    · simp only [hempty]
      cases p.commands.checkTargets p.components with
      | error cause => rfl
      | ok => cases listing.urls <;> rfl

/-- Containers are refused as a mistake in what is declared. -/
theorem category_of_checkComponents {components : List Component} {error : PushError}
    (h : checkComponents components = .error error) : error.category = .configuration := by
  unfold checkComponents at h
  split at h
  · obtain rfl := Except.error.inj h
    rfl
  · obtain ⟨cause, -, rfl⟩ := Except.mapError_error_iff.1 h
    rfl

/-- Checks and URLs that fail do so with errors of one category. -/
theorem category_of_mem_failures {error : PushError} (h : error ∈ p.failures listing) :
    error.category = .configuration := by
  obtain ⟨outcome, houtcome, hfails⟩ := List.mem_filterMap.1 h
  have herror : outcome = .error error := by
    cases outcome with
    | ok => cases hfails
    | error e => exact congrArg Except.error (Option.some.inj hfails)
  subst herror
  simp only [List.mem_cons, List.not_mem_nil, or_false] at houtcome
  rcases houtcome with hcontainers | hcommands | htargets | hurls
  · exact category_of_checkComponents hcontainers.symm
  · split at hcommands
    · obtain rfl := Except.error.inj hcommands
      rfl
    · cases hcommands
  · obtain ⟨cause, -, rfl⟩ := Except.mapError_error_iff.1 htargets.symm
    rfl
  · cases hlisting : listing.urls with
    | error e =>
      rw [hlisting] at hurls
      obtain rfl := Except.error.inj hurls
      rfl
    | ok urls =>
      rw [hlisting] at hurls
      cases hurls

/-! ## What is not refused -/

/-- The second part of a push ends with an error that tells of an answer or with one of a command that
has no container. -/
theorem execution_error {errors : PushError → Prop} (answered : ∀ e, e.FromAnswer → errors e)
    (passed : p.check = .ok ()) {containers : ContainerReport}
    (targets : ∀ live middle, engine before (.listContainers (Labels.ofComponent p.component))
      (.reply live) middle → ∀ gc ∈ p.commands.commands, ∀ error,
        gc.2.target (p.context config) live = .error error → errors error)
    {error : PushError}
    (run : (p.execution config containers).Runs engine before trace (.error error) after) :
    errors error := by
  rcases Script.runs_bind_iff.1 run with ⟨e, herror, hlist⟩ | ⟨live, middle, t₁, t₂, hlist, hrest, -⟩
  · obtain rfl := Except.error.inj herror
    exact answered _ ((ask_ends _).of_error hlist)
  · obtain ⟨hlisted, -⟩ := Script.runs_ask_ok.1 hlist
    have hends : (CommandSelection.runAll (p.context config) p.commands containers.allKept live).Ends
        errors fun _ => True :=
      CommandSelection.runAll_ends answered (check_ok_iff.1 passed).2.1 (targets live middle hlisted)
    have hdone : (CommandSelection.runAll (p.context config) p.commands containers.allKept live >>=
        fun commands => Script.note (.pushed p.component containers.newAliases.length) >>=
          fun _ => Script.done (PushReport.mk containers commands)).Ends errors fun _ => True :=
      hends.bind fun _ _ => trivial
    exact hdone.of_error hrest

/-- A command that has no container is a mistake in what is declared. -/
theorem category_of_target {ctx : Context} {command : Command} {live : List ListedContainer}
    {error : PushError} (h : command.target ctx live = .error error) :
    error.category = .configuration := by
  unfold Command.target at h
  split at h
  · cases h
  · obtain rfl := Except.error.inj h
    rfl

/-- Where nothing fails beforehand, volumes are resolved and containers reconciled with late errors
only. -/
theorem reconciliation_ends (passed : p.check = .ok ()) {urls : List UrlRecord}
    (loaded : listing.urls = .ok urls) :
    (p.reconciliation config listing).Ends PushError.Late fun _ => True := by
  have hload : (Script.ofExcept (listing.urls.mapError fun e =>
      PushError.urlsUnavailable p.component e.message)).Ends PushError.Late fun _ => True := by
    rw [loaded]
    trivial
  exact (Script.ends_notes _).bind fun _ _ => hload.bind fun urls _ =>
    ((resolveVolumes_ends _ _).mono (fun _ => PushError.FromAnswer.late) fun _ => id).bind
      fun _ covers => Blueprint.realize_ends (check_ok_iff.1 passed).1 covers

/-! ## All errors of a push -/

/-- A push that fails one of its checks, or the loading of its URLs, does nothing. -/
theorem runs_refused {error : PushError} (fails : (p.failures listing).head? = some error)
    (run : (p.script config listing).Runs engine before trace verdict after) :
    verdict = .error error ∧ Happening.calls trace = [] ∧ after = before := by
  rw [head?_failures] at fails
  cases script_proceeding run with
  | checking failed =>
    rw [failed] at fails
    obtain rfl := Option.some.inj fails
    exact ⟨rfl, rfl, rfl⟩
  | loading passed failed =>
    rw [passed, failed] at fails
    obtain rfl := Option.some.inj fails
    exact ⟨rfl, calls_opening p listing, rfl⟩
  | resolving passed loaded | reconciling passed loaded | executing passed loaded =>
    rw [passed, loaded] at fails
    cases fails

/-- If nothing fails beforehand, the checks pass and the URLs are there. -/
theorem accepted_of_head? (none : (p.failures listing).head? = none) :
    p.check = .ok () ∧ ∃ urls, listing.urls = .ok urls := by
  rw [head?_failures] at none
  cases hcheck : p.check with
  | error e => simp [hcheck] at none
  | ok =>
    cases hurls : listing.urls with
    | error e => simp [hcheck, hurls] at none
    | ok urls => exact ⟨rfl, urls, rfl⟩

/-- If nothing fails beforehand, an error is late, or it comes from the second part of the push. -/
theorem late_or_executing {error : PushError} (accepted : (p.failures listing).head? = none)
    (run : (p.script config listing).Runs engine before trace (.error error) after) :
    error.Late ∨ ∃ containers middle t₁ t₂,
      (p.reconciliation config listing).Runs engine before t₁ (.ok containers) middle ∧
      (p.execution config containers).Runs engine middle t₂ (.error error) after := by
  obtain ⟨passed, urls, loaded⟩ := accepted_of_head? accepted
  have hsession : (p.session config listing).Runs engine before trace (.error error) after := by
    unfold script at run
    rw [passed] at run
    exact run
  rcases Script.runs_bind_iff.1 hsession with
    ⟨e, herror, hfirst⟩ | ⟨containers, middle, t₁, t₂, hfirst, hsecond, -⟩
  · obtain rfl := Except.error.inj herror
    exact .inl ((reconciliation_ends passed loaded).of_error hfirst)
  · exact .inr ⟨containers, middle, t₁, t₂, hfirst, hsecond⟩

/-- No error of a push is of the category of all others. -/
theorem category_ne_other {error : PushError}
    (run : (p.script config listing).Runs engine before trace (.error error) after) :
    error.category ≠ .other := by
  cases hfirst : (p.failures listing).head? with
  | some e =>
    obtain ⟨herror, -⟩ := runs_refused hfirst run
    obtain rfl := Except.error.inj herror
    rw [category_of_mem_failures (List.mem_of_head? hfirst)]
    nofun
  | none =>
    rcases late_or_executing hfirst run with hlate | ⟨containers, middle, t₁, t₂, -, hsecond⟩
    · exact hlate.2
    · have htargets : ∀ (live : List ListedContainer) middle', engine middle
          (.listContainers (Labels.ofComponent p.component)) (.reply live) middle' →
            ∀ gc ∈ p.commands.commands, ∀ e, gc.2.target (p.context config) live = .error e →
              e.category ≠ .other := by
        intro live middle' _ gc _ e he
        rw [category_of_target he]
        nofun
      have hanswered : ∀ e : PushError, e.FromAnswer → e.category ≠ .other := fun _ h => h.late.2
      exact execution_error hanswered (accepted_of_head? hfirst).1 htargets hsecond

/-- What a push is refused for was there before it began. -/
theorem head?_of_configuration (honest : engine.Honest) (keepsIds : engine.KeepsIds)
    (ids : before.DistinctIds) {error : PushError}
    (run : (p.script config listing).Runs engine before trace (.error error) after)
    (configuration : error.category = .configuration) : (p.failures listing).head? = some error := by
  cases hfirst : (p.failures listing).head? with
  | some e =>
    obtain ⟨herror, -⟩ := runs_refused hfirst run
    rw [Except.error.inj herror]
  | none =>
    exfalso
    obtain ⟨passed, -⟩ := accepted_of_head? hfirst
    rcases late_or_executing hfirst run with hlate | ⟨containers, middle, t₁, t₂, hreconciled, hsecond⟩
    · exact hlate.1 configuration
    · obtain ⟨urls, names, _, _, -, -, settled⟩ := reconciliation_ok honest keepsIds ids hreconciled
      have hlate : error.Late := by
        refine execution_error (fun _ => PushError.FromAnswer.late) passed ?_ hsecond
        intro live middle' hlisted gc hgc e he
        -- every command has its container where the containers are settled
        obtain ⟨container, hcontainer⟩ :=
          settled.targets passed (honest.granted hlisted).1 gc hgc
        rw [hcontainer] at he
        cases he
      exact hlate.1 configuration

/-- **Refusal.** If one of its checks or the loading of its URLs fails, a push does nothing and ends with
what the first of them says, which is a mistake in what is declared. No other error of a push is of that
category, on an engine that does what it replies and that nobody else changes; and on no engine at all
does a push end with an error of the file system, of a document's form or of the program itself. -/
theorem refused_first (run : (p.script config listing).Runs engine before trace verdict after) :
    (∀ error, (p.failures listing).head? = some error →
      verdict = .error error ∧ error.category = .configuration ∧
        Happening.calls trace = [] ∧ after = before) ∧
    (∀ error, verdict = .error error → error.category ≠ .other) ∧
    (engine.Honest → engine.KeepsIds → before.DistinctIds → ∀ error, verdict = .error error →
      error.category = .configuration →
        (p.failures listing).head? = some error ∧ Happening.calls trace = []) := by
  refine ⟨?_, ?_, ?_⟩
  · intro error fails
    obtain ⟨hverdict, hcalls, hafter⟩ := runs_refused fails run
    exact ⟨hverdict, category_of_mem_failures (List.mem_of_head? fails), hcalls, hafter⟩
  · rintro error rfl
    exact category_ne_other run
  · rintro honest keepsIds ids error rfl configuration
    have hfirst := head?_of_configuration honest keepsIds ids run configuration
    exact ⟨hfirst, (runs_refused hfirst run).2.1⟩

/-! ## A push that is refused -/

/-- A push without commands, of a container whose alias is empty. -/
def sampleRefused : Push :=
  { sample with components := [{ sampleComponent with aliasName := "" }], commands := ⟨none, none, none⟩ }

/-- URLs that could not be read. -/
def sampleUnread : UrlListing := ⟨[], .error (.fileSystem "no such file")⟩

/-- Of the empty alias, the missing command and the URLs that could not be read, it is the alias that is
told of, and nothing is asked of the engine. -/
theorem refused_first_sample :
    (sampleRefused.script .standard sampleUnread).Runs MemoryEngine.faulty ⟨[], []⟩ []
      (.error (.invalid .emptyAlias)) ⟨[], []⟩ ∧
    sampleRefused.failures sampleUnread = [.invalid .emptyAlias, .misconfigured .noCommands,
      .urlsUnavailable "shop" "I/O error: no such file"] ∧
    (sampleRefused.failures sampleUnread).head? = some (.invalid .emptyAlias) := by
  have run : (sampleRefused.script .standard sampleUnread).Runs MemoryEngine.faulty ⟨[], []⟩ []
      (.error (.invalid .emptyAlias)) ⟨[], []⟩ := ⟨rfl, rfl, rfl⟩
  obtain ⟨-, -, hconverse⟩ := refused_first run
  obtain ⟨hfirst, -⟩ := hconverse (MemoryEngine.honest_conduct _) (MemoryEngine.keepsIds_conduct _)
    (by decide) _ rfl rfl
  exact ⟨run, by decide, hfirst⟩

end Push

end DevfilePush
