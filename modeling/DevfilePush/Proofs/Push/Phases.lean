import DevfilePush.Proofs.Devfile.Check
import DevfilePush.Proofs.Engine.Runs
import DevfilePush.Push

/-!
# How far a push comes

A push checks what it is asked for, loads the URLs, resolves volumes, reconciles containers and executes
commands, and it can end in each of these phases. Which runs of which parts a run of the push is made of
is laid down here once, for every way it can end.

## Main definitions

* `Push.Proceeding`: the phases that a push comes through, and the one it ends in.

## Main statements

* `Push.runs_reconciliation_ok`, `Push.runs_execution_ok`: the two parts of a push, if they end well.
* `Push.script_proceeding`: every run of a push ends in one of the phases.
* `Push.runs_script_unloaded_iff`: the run of a push whose URLs cannot be had.
-/

namespace DevfilePush.Push

/-- What is logged before the engine is asked for anything. -/
def opening (p : Push) (listing : UrlListing) : List Happening :=
  .logged (.pushing p.component) :: listing.events.map .logged

/-- The phases that a push comes through, up to the one it ends in. -/
inductive Proceeding (p : Push) (config : ValidConfig) (listing : UrlListing) (engine : Conduct)
    (before : Holdings) : List Happening → Except PushError PushReport → Holdings → Prop
  | checking {error : PushError} (failed : p.check = .error error) :
      p.Proceeding config listing engine before [] (.error error) before
  | loading (passed : p.check = .ok ()) {error : PushError} (failed : listing.urls = .error error) :
      p.Proceeding config listing engine before (p.opening listing)
        (.error (.urlsUnavailable p.component error.message)) before
  | resolving (passed : p.check = .ok ()) {urls : List UrlRecord} (loaded : listing.urls = .ok urls)
      {own : List Happening} {error : PushError} {after : Holdings}
      (failed : (resolveVolumes (p.context config) p.components p.commands.run.isSome).Runs engine before
        own (.error error) after) :
      p.Proceeding config listing engine before (p.opening listing ++ own) (.error error) after
  | reconciling (passed : p.check = .ok ()) {urls : List UrlRecord} (loaded : listing.urls = .ok urls)
      {t : List Happening} {names : VolumeNames} {middle : Holdings}
      (resolved : (resolveVolumes (p.context config) p.components p.commands.run.isSome).Runs engine
        before t (.ok names) middle)
      {own : List Happening} {error : PushError} {after : Holdings}
      (failed : ((p.blueprint urls names).realize (p.context config)).Runs engine middle own
        (.error error) after) :
      p.Proceeding config listing engine before (p.opening listing ++ (t ++ own)) (.error error) after
  | executing (passed : p.check = .ok ()) {urls : List UrlRecord} (loaded : listing.urls = .ok urls)
      {t : List Happening} {names : VolumeNames} {middle : Holdings}
      (resolved : (resolveVolumes (p.context config) p.components p.commands.run.isSome).Runs engine
        before t (.ok names) middle)
      {t' : List Happening} {containers : ContainerReport} {settled : Holdings}
      (reconciled : ((p.blueprint urls names).realize (p.context config)).Runs engine middle t'
        (.ok containers) settled)
      {own : List Happening} {verdict : Except PushError PushReport} {after : Holdings}
      (ended : (p.execution config containers).Runs engine settled own verdict after) :
      p.Proceeding config listing engine before (p.opening listing ++ (t ++ (t' ++ own))) verdict after

variable {p : Push} {config : ValidConfig} {listing : UrlListing} {engine : Conduct}
  {before after : Holdings} {trace : List Happening}

/-- Nothing is asked of the engine before the volumes are resolved. -/
@[simp] theorem calls_opening (p : Push) (listing : UrlListing) :
    Happening.calls (p.opening listing) = [] := by
  simp [opening]

/-- What is asked for after the opening is all that is asked for. -/
theorem requests_opening_append (p : Push) (listing : UrlListing) (trace : List Happening) :
    (p.opening listing ++ trace).filterMap (·.call?) = trace.filterMap (·.call?) := by
  rw [← Happening.filterMap_call?_calls, Happening.calls_append, calls_opening, List.nil_append,
    Happening.filterMap_call?_calls]

/-- The first part of a push logs its opening, then it loads, resolves and reconciles. -/
theorem runs_reconciliation {verdict : Except PushError ContainerReport}
    (run : (p.reconciliation config listing).Runs engine before trace verdict after) :
    ∃ rest, trace = p.opening listing ++ rest ∧
      ((Script.ofExcept (listing.urls.mapError fun e => .urlsUnavailable p.component e.message)) >>=
        fun urls => resolveVolumes (p.context config) p.components p.commands.run.isSome >>=
        fun names => (p.blueprint urls names).realize (p.context config)).Runs engine before rest
          verdict after := by
  obtain ⟨t₁, rfl, hlogs⟩ := Script.runs_note_bind.1 run
  obtain ⟨t₂, rfl, hload⟩ := Script.runs_notes_bind.1 hlogs
  exact ⟨t₂, rfl, hload⟩

/-- The first part of a push, if it ends well. -/
theorem runs_reconciliation_ok {containers : ContainerReport}
    (run : (p.reconciliation config listing).Runs engine before trace (.ok containers) after) :
    ∃ urls names middle t t', listing.urls = .ok urls ∧
      (resolveVolumes (p.context config) p.components p.commands.run.isSome).Runs engine before t
        (.ok names) middle ∧
      ((p.blueprint urls names).realize (p.context config)).Runs engine middle t' (.ok containers)
        after ∧
      trace = p.opening listing ++ (t ++ t') := by
  obtain ⟨rest, rfl, hload⟩ := runs_reconciliation run
  obtain ⟨urls, m₁, t₁, t₂, hurls, hvolumes, rfl⟩ := Script.runs_bind_ok.1 hload
  obtain ⟨rfl, hloaded, rfl⟩ := Script.runs_ofExcept.1 hurls
  obtain ⟨names, middle, t, t', resolved, reconciled, rfl⟩ := Script.runs_bind_ok.1 hvolumes
  exact ⟨urls, names, middle, t, t', Except.mapError_ok_iff.1 hloaded.symm, resolved, reconciled, rfl⟩

/-- The second part of a push, if it ends well: a listing, the commands and what is told in the end. -/
theorem runs_execution_ok {containers : ContainerReport} {report : PushReport}
    (run : (p.execution config containers).Runs engine before trace (.ok report) after) :
    ∃ (live : List ListedContainer) (middle : Holdings) (own : List Happening),
      engine before (.listContainers (Labels.ofComponent p.component)) (.reply live) middle ∧
      (CommandSelection.runAll (p.context config) p.commands containers.allKept live).Runs engine middle
        own (.ok report.commands) after ∧
      report.containers = containers ∧
      trace = .answered (.listContainers (Labels.ofComponent p.component)) (.reply live) ::
        (own ++ [.logged (.pushed p.component containers.newAliases.length)]) := by
  obtain ⟨live, middle, t₁, t₂, hlist, hrest, rfl⟩ := Script.runs_bind_ok.1 run
  obtain ⟨met, rfl⟩ := Script.runs_ask_ok.1 hlist
  obtain ⟨commands, m, own, t₃, hcommands, hlast, rfl⟩ := Script.runs_bind_ok.1 hrest
  obtain ⟨_, rfl, rfl, hreport, rfl⟩ := Script.runs_note_bind.1 hlast
  obtain rfl := Except.ok.inj hreport
  exact ⟨live, middle, own, met, hcommands, rfl, rfl⟩

/-- **Phases.** Every run of a push comes through its phases up to the one that it ends in. -/
theorem script_proceeding {verdict : Except PushError PushReport}
    (run : (p.script config listing).Runs engine before trace verdict after) :
    p.Proceeding config listing engine before trace verdict after := by
  rcases Script.runs_bind_iff.1 run with ⟨error, rfl, hcheck⟩ | ⟨⟨⟩, m₁, t₁, t₂, hcheck, hsession, rfl⟩
  · obtain ⟨rfl, hfailed, rfl⟩ := Script.runs_ofExcept.1 hcheck
    exact .checking hfailed.symm
  obtain ⟨rfl, hpassed, rfl⟩ := Script.runs_ofExcept.1 hcheck
  rw [List.nil_append]
  rcases Script.runs_bind_iff.1 hsession with
    ⟨error, rfl, hfirst⟩ | ⟨containers, m₂, t₃, t₄, hfirst, hsecond, rfl⟩
  · obtain ⟨rest, rfl, hload⟩ := runs_reconciliation hfirst
    rcases Script.runs_bind_iff.1 hload with ⟨_, herror, hurls⟩ | ⟨urls, m₃, t₅, t₆, hurls, hvolumes, rfl⟩
    · obtain ⟨rfl, hloaded, rfl⟩ := Script.runs_ofExcept.1 hurls
      cases herror
      obtain ⟨e, hlisting, rfl⟩ := Except.mapError_error_iff.1 hloaded.symm
      rw [List.append_nil]
      exact .loading hpassed.symm hlisting
    obtain ⟨rfl, hloaded, rfl⟩ := Script.runs_ofExcept.1 hurls
    have hlisting := Except.mapError_ok_iff.1 hloaded.symm
    rcases Script.runs_bind_iff.1 hvolumes with
      ⟨_, herror, hresolve⟩ | ⟨names, m₄, t₇, t₈, hresolve, hrealize, rfl⟩
    · cases herror
      exact .resolving hpassed.symm hlisting hresolve
    · exact .reconciling hpassed.symm hlisting hresolve hrealize
  · obtain ⟨urls, names, m₃, t₅, t₆, hlisting, hresolve, hrealize, rfl⟩ :=
      runs_reconciliation_ok hfirst
    rw [List.append_assoc, List.append_assoc]
    exact .executing hpassed.symm hlisting hresolve hrealize hsecond

/-- A push whose URLs cannot be had goes no further than its opening. -/
theorem runs_script_unloaded_iff (passed : p.check = .ok ()) {error : PushError}
    (failed : listing.urls = .error error) {verdict : Except PushError PushReport} :
    (p.script config listing).Runs engine before trace verdict after ↔
      trace = p.opening listing ∧
        verdict = .error (.urlsUnavailable p.component error.message) ∧ after = before := by
  constructor
  · intro run
    cases script_proceeding run with
    | checking failed' =>
      rw [passed] at failed'
      cases failed'
    | loading _ failed' =>
      rw [failed] at failed'
      obtain rfl := Except.error.inj failed'
      exact ⟨rfl, rfl, rfl⟩
    | resolving _ loaded | reconciling _ loaded | executing _ loaded =>
      rw [failed] at loaded
      cases loaded
  · rintro ⟨rfl, rfl, rfl⟩
    refine Script.runs_bind_iff.2 (.inr ⟨(), after, [], p.opening listing,
      Script.runs_ofExcept.2 ⟨rfl, passed.symm, rfl⟩, Script.runs_bind_iff.2 (.inl ⟨_, rfl, ?_⟩), rfl⟩)
    refine Script.runs_note_bind.2 ⟨_, rfl, Script.runs_notes_bind.2 ⟨[], (List.append_nil _).symm,
      Script.runs_bind_iff.2 (.inl ⟨_, rfl, Script.runs_ofExcept.2 ⟨rfl, ?_, rfl⟩⟩)⟩⟩
    rw [failed]
    rfl

end DevfilePush.Push
