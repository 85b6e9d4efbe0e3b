import DevfilePush.Proofs.Engine.Memory
import DevfilePush.Proofs.Volume.Supply

/-!
# The course of resolving volumes

On an engine on which no call fails, resolving goes through the roles that a push needs, in their order and
each of them once. A role is listed; where the listing shows no volume, one is made, and where it shows
several, resolving ends. A volume that is made for one role is not listed for another, so all of this can
be told from what the engine held in the beginning.

## Main definitions

* `Holdings.AtMostOne`: no role of some has several volumes.
* `Holdings.requestsFor`, `Holdings.Resolved`: the calls that resolve a role, and roles that were resolved.
* `Resolving`: the course of resolving roles, one after another.
* `Script.Resolves`: every run of a script takes such a course.

## Main statements

* `resolveVolume_resolves`, `resolveVolumes_resolves`: one role, and all that a push needs.
* `Resolving.split`: as long as no role has several volumes, roles are resolved.
* `resolveVolumes_exact`: what resolving asks for, what it ends with and what it leaves.
-/

namespace DevfilePush

namespace Holdings

variable (h : Holdings) (component : String)

/-- Whether a role has no volume. -/
def lacks (role : VolumeRole) : Bool := (h.volumesWith (role.labels component)).isEmpty

/-- None of these roles has several volumes. -/
def AtMostOne (roles : List VolumeRole) : Prop :=
  ∀ role ∈ roles, (h.volumesWith (role.labels component)).length ≤ 1

/-- The calls that resolve a role: a listing, and what makes a volume where there is none. -/
def requestsFor (role : VolumeRole) : List Request :=
  .listVolumes (role.labels component) ::
    if h.lacks component role then [.createVolume (role.stem component) (role.labels component)] else []

/-- Roles were resolved by some calls, in order and each by its own: there is one more volume for each of
the roles that had none, and nothing else is different. -/
structure Resolved (before : Holdings) (component : String) (roles : List VolumeRole)
    (calls : List Request) (after : Holdings) : Prop where
  calls : calls = roles.flatMap (before.requestsFor component)
  supplied : before.Supplied after component (roles.filter (before.lacks component))

end Holdings

/-- The course of resolving roles, one after another: the calls, whether all were resolved, and what the
engine holds in the end. -/
inductive Resolving (component : String) :
    List VolumeRole → Holdings → List Request → Except PushError Unit → Holdings → Prop
  | none (h : Holdings) : Resolving component [] h [] (.ok ()) h
  | reused {role : VolumeRole} {roles : List VolumeRole} {before after : Holdings} {calls : List Request}
      {verdict : Except PushError Unit}
      (only : (before.volumesWith (role.labels component)).length = 1)
      (rest : Resolving component roles before calls verdict after) :
      Resolving component (role :: roles) before (.listVolumes (role.labels component) :: calls) verdict
        after
  | created {role : VolumeRole} {roles : List VolumeRole} {before after : Holdings}
      {calls : List Request} {verdict : Except PushError Unit}
      (missing : before.volumesWith (role.labels component) = []) (volume : Volume)
      (labelled : volume.labels = role.labels component)
      (rest : Resolving component roles (before.addVolume volume) calls verdict after) :
      Resolving component (role :: roles) before
        (.listVolumes (role.labels component) ::
          .createVolume (role.stem component) (role.labels component) :: calls) verdict after
  | conflict {role : VolumeRole} {roles : List VolumeRole} {h : Holdings}
      (several : 2 ≤ (h.volumesWith (role.labels component)).length) :
      Resolving component (role :: roles) h [.listVolumes (role.labels component)]
        (.error (.duplicateVolumes component role.text
          (h.volumesWith (role.labels component)).length)) h

namespace Resolving

variable {component : String} {roles others : List VolumeRole} {role : VolumeRole}
  {before middle after : Holdings} {calls calls' : List Request} {verdict : Except PushError Unit}

/-- Where roles were resolved, others can be resolved after them. -/
theorem append (first : Resolving component roles before calls (.ok ()) middle)
    (next : Resolving component others middle calls' verdict after) :
    Resolving component (roles ++ others) before (calls ++ calls') verdict after := by
  generalize hok : Except.ok () = ended at first
  induction first with
  | none => exact next
  | reused only _ ih => exact .reused only (ih next hok)
  | created missing volume labelled _ ih => exact .created missing volume labelled (ih next hok)
  | conflict => cases hok

/-- Where resolving roles fails, others are not begun. -/
theorem append_error {error : PushError}
    (first : Resolving component roles before calls (.error error) after) (others : List VolumeRole) :
    Resolving component (roles ++ others) before calls (.error error) after := by
  generalize hfails : Except.error error = ended at first ⊢
  induction first with
  | none => cases hfails
  | reused only _ ih => exact .reused only (ih hfails)
  | created missing volume labelled _ ih => exact .created missing volume labelled (ih hfails)
  | conflict several => exact .conflict several

end Resolving

/-! ## Scripts that resolve roles -/

namespace Script

variable {α β : Type} {engine : Conduct} {component : String} {roles others : List VolumeRole}

/-- Every run of the script resolves these roles, or ends at one of them. -/
def Resolves (engine : Conduct) (component : String) (roles : List VolumeRole) (s : Script α) : Prop :=
  ∀ ⦃before : Holdings⦄ ⦃trace : List Happening⦄ ⦃verdict : Except PushError α⦄ ⦃after : Holdings⦄,
    s.Runs engine before trace verdict after →
      Resolving component roles before (trace.filterMap (·.call?)) (verdict.map fun _ => ()) after

theorem resolves_done (value : α) : (done value).Resolves engine component [] := by
  rintro before trace verdict after ⟨rfl, rfl, rfl⟩
  exact .none after

theorem Resolves.bind {s : Script α} {f : α → Script β} (hs : s.Resolves engine component roles)
    (hf : ∀ value, (f value).Resolves engine component others) :
    (s >>= f).Resolves engine component (roles ++ others) := by
  intro before trace verdict after run
  rcases runs_bind_iff.1 run with ⟨error, rfl, h⟩ | ⟨value, middle, t₁, t₂, h₁, h₂, rfl⟩
  · exact (hs h).append_error others
  · rw [List.filterMap_append]
    exact (hs h₁).append (hf value h₂)

/-- What is done with the value in the end resolves nothing more. -/
theorem Resolves.bind_done {s : Script α} (hs : s.Resolves engine component roles) (f : α → β) :
    (s >>= fun value => done (f value)).Resolves engine component roles := by
  intro before trace verdict after run
  obtain ⟨inner, h, rfl⟩ := runs_bind_done.1 run
  have hinner := hs h
  cases inner <;> exact hinner

end Script

section Resolves

variable {ctx : Context} {engine : Conduct} {before after : Holdings} {trace : List Happening}

/-- Looking a role up, without faults, shows what it has. -/
theorem lookupVolume_granted (honest : engine.Honest) (faultless : engine.Faultless) {role : VolumeRole}
    {verdict : Except PushError (Lookup Volume)}
    (run : (lookupVolume ctx role).Runs engine before trace verdict after) :
    ∃ found, List.Perm found (before.volumesWith (role.labels ctx.component)) ∧
      verdict = .ok (.ofMatches found) ∧ after = before ∧
      trace.filterMap (·.call?) = [.listVolumes (role.labels ctx.component)] := by
  obtain ⟨inner, hask, rfl⟩ := Script.runs_bind_done.1 run
  have possible : ∃ found k, before.Grants (.listVolumes (role.labels ctx.component)) found k :=
    ⟨before.volumesWith (role.labels ctx.component), before, .refl _, rfl⟩
  obtain ⟨found, rfl, ⟨hperm, rfl⟩, rfl⟩ := Script.runs_ask_granted honest faultless possible hask
  exact ⟨found, hperm, rfl, rfl, rfl⟩

/-- **One role.** It is listed, and taken, made or found to have several volumes. -/
theorem resolveVolume_resolves (honest : engine.Honest) (faultless : engine.Faultless)
    (role : VolumeRole) : (resolveVolume ctx role).Resolves engine ctx.component [role] := by
  intro before trace verdict after run
  rcases Script.runs_bind_iff.1 run with ⟨error, rfl, hlook⟩ | ⟨looked, m, t₁, t₂, hlook, hrest, rfl⟩
  · obtain ⟨found, -, hok, -⟩ := lookupVolume_granted honest faultless hlook
    cases hok
  obtain ⟨found, hperm, hlooked, rfl, hlisting⟩ := lookupVolume_granted honest faultless hlook
  obtain rfl := Except.ok.inj hlooked
  rw [List.filterMap_append, hlisting, List.singleton_append]
  cases hm : Lookup.ofMatches found with
  | missing =>
    obtain rfl := Lookup.ofMatches_eq_missing.1 hm
    rw [hm] at hrest
    have possible : ∃ volume k, m.Grants
        (.createVolume (role.stem ctx.component) (role.labels ctx.component)) volume k :=
      ⟨(⟨"", role.labels ctx.component⟩ : Volume), _, rfl, rfl⟩
    rcases Script.runs_bind_iff.1 hrest with ⟨error, rfl, hcreate⟩ | ⟨v, m', t₃, t₄, hcreate, hnote, rfl⟩
    · obtain ⟨volume, hok, -⟩ := Script.runs_ask_granted honest faultless possible hcreate
      cases hok
    · obtain ⟨volume, -, ⟨hlabels, rfl⟩, rfl⟩ :=
        Script.runs_ask_granted honest faultless possible hcreate
      obtain ⟨rest, rfl, rfl, rfl, rfl⟩ := Script.runs_note_bind.1 hnote
      exact .created hperm.nil_eq.symm volume hlabels (.none _)
  | found v =>
    obtain rfl := Lookup.ofMatches_eq_found.1 hm
    rw [hm] at hrest
    obtain ⟨rest, rfl, rfl, rfl, rfl⟩ := Script.runs_note_bind.1 hrest
    exact .reused hperm.length_eq.symm (.none _)
  | conflict vs =>
    obtain ⟨rfl, hseveral⟩ := Lookup.ofMatches_eq_conflict.1 hm
    rw [hm] at hrest
    obtain ⟨rfl, rfl, rfl⟩ := hrest
    rw [hperm.length_eq] at hseveral
    rw [hperm.length_eq]
    exact .conflict hseveral

theorem resolveStorage_resolves (honest : engine.Honest) (faultless : engine.Faultless)
    (resolved : SortedMap String String) (names : List String) :
    (resolveStorage ctx resolved names).Resolves engine ctx.component (names.map .storage) := by
  induction names generalizing resolved with
  | nil => exact Script.resolves_done resolved
  | cons k rest ih => exact (resolveVolume_resolves honest faultless (.storage k)).bind fun _ => ih _

/-- **All roles.** Those that a push needs are resolved in their order. -/
theorem resolveVolumes_resolves (honest : engine.Honest) (faultless : engine.Faultless)
    (components : List Component) (needsSupervisor : Bool) :
    (resolveVolumes ctx components needsSupervisor).Resolves engine ctx.component
      (neededRoles components needsSupervisor) := by
  have hsupervisor : (resolveSupervisor ctx needsSupervisor).Resolves engine ctx.component
      (if needsSupervisor then [.supervisor] else []) := by
    cases needsSupervisor with
    | false => exact Script.resolves_done none
    | true => exact (resolveVolume_resolves honest faultless .supervisor).bind_done _
  rw [neededRoles, List.append_assoc]
  exact (resolveVolume_resolves honest faultless .projectSource).bind fun _ => hsupervisor.bind fun _ =>
    (resolveStorage_resolves honest faultless ∅ _).bind_done _

end Resolves

/-! ## What the course comes to -/

section Course

variable {component : String} {roles others : List VolumeRole} {role : VolumeRole}
  {before after : Holdings} {calls : List Request} {verdict : Except PushError Unit}

/-- A push needs no role twice. -/
theorem nodup_neededRoles (components : List Component) (needsSupervisor : Bool) :
    (neededRoles components needsSupervisor).Nodup := by
  have hstorage : ((storageNames components).map VolumeRole.storage).Nodup := by
    rw [storageNames_eq]
    exact (nodup_eraseDups _).map fun _ _ => VolumeRole.storage.inj
  rw [neededRoles, List.append_assoc, List.singleton_append, List.nodup_cons]
  cases needsSupervisor <;> simp [hstorage]

/-- Unless all roles have at most one volume, there is a first one that has several. -/
theorem Holdings.exists_several (hnot : ¬ before.AtMostOne component roles) :
    ∃ earlier role later, roles = earlier ++ role :: later ∧ before.AtMostOne component earlier ∧
      2 ≤ (before.volumesWith (role.labels component)).length := by
  cases hfind : roles.find? fun role => 2 ≤ (before.volumesWith (role.labels component)).length with
  | none =>
    refine absurd (fun role hrole => ?_) hnot
    have hfew := List.find?_eq_none.1 hfind role hrole
    exact Nat.le_of_lt_succ (by simpa using hfew)
  | some role =>
    obtain ⟨several, earlier, later, rfl, hearlier⟩ := List.find?_eq_some_iff_append.1 hfind
    refine ⟨earlier, role, later, rfl, fun other hother => ?_, by simpa using several⟩
    exact Nat.le_of_lt_succ (by simpa using hearlier other hother)

/-- Whatever is done to other roles, a role is resolved by the same calls. -/
theorem Holdings.Supplied.lacks_eq (supplied : before.Supplied after component roles)
    (hrole : role ∉ roles) : after.lacks component role = before.lacks component role := by
  rw [lacks, lacks, supplied.volumesWith_of_not_mem hrole]

/-- A role that has its volume is resolved by its listing. -/
theorem Holdings.Resolved.reused (only : (before.volumesWith (role.labels component)).length = 1)
    (resolved : before.Resolved component roles calls after) :
    before.Resolved component (role :: roles) (.listVolumes (role.labels component) :: calls) after := by
  have hlacks : before.lacks component role = false := by
    rw [lacks, List.isEmpty_eq_false_iff]
    exact List.ne_nil_of_length_pos (by omega)
  refine ⟨?_, ?_⟩
  · rw [List.flatMap_cons, ← resolved.calls, requestsFor, hlacks]
    rfl
  · rw [List.filter_cons_of_neg (by simp [hlacks])]
    exact resolved.supplied

/-- A role that has no volume is given one, which does not count for the roles after it. -/
theorem Holdings.Resolved.created (missing : before.volumesWith (role.labels component) = [])
    {volume : Volume} (labelled : volume.labels = role.labels component) (distinct : role ∉ roles)
    (resolved : (before.addVolume volume).Resolved component roles calls after) :
    before.Resolved component (role :: roles)
      (.listVolumes (role.labels component) ::
        .createVolume (role.stem component) (role.labels component) :: calls) after := by
  have hone : before.Supplied (before.addVolume volume) component [role] := .one labelled missing
  have hlacks : before.lacks component role = true := by
    rw [lacks, missing]
    rfl
  have hsame : ∀ other ∈ roles,
      (before.addVolume volume).lacks component other = before.lacks component other := by
    intro other hother
    refine hone.lacks_eq fun hmem => distinct ?_
    rwa [← List.mem_singleton.1 hmem]
  refine ⟨?_, ?_⟩
  · rw [List.flatMap_cons, resolved.calls, requestsFor, hlacks]
    refine congrArg₂ _ rfl (congrArg _ (List.flatMap_congr fun other hother => ?_))
    rw [requestsFor, requestsFor, hsame other hother]
  · rw [List.filter_cons_of_pos hlacks, ← List.filter_congr hsame]
    exact hone.trans resolved.supplied

/-- As long as no role has several volumes, roles are resolved, and the course goes on with those after
them. -/
theorem Resolving.split (distinct : (roles ++ others).Nodup) (single : before.AtMostOne component roles)
    (resolving : Resolving component (roles ++ others) before calls verdict after) :
    ∃ first rest middle, calls = first ++ rest ∧ before.Resolved component roles first middle ∧
      Resolving component others middle rest verdict after := by
  induction roles generalizing before calls with
  | nil => exact ⟨[], calls, before, rfl, ⟨rfl, .refl _ _⟩, resolving⟩
  | cons role roles ih =>
    rw [List.cons_append, List.nodup_cons] at distinct
    have hrole : role ∉ roles := fun h => distinct.1 (List.mem_append_left _ h)
    obtain ⟨hone, single⟩ := List.forall_mem_cons.1 single
    cases resolving with
    | reused only next =>
      obtain ⟨first, rest, middle, rfl, resolved, going⟩ := ih distinct.2 single next
      exact ⟨_ :: first, rest, middle, rfl, resolved.reused only, going⟩
    | created missing volume labelled next =>
      have single' : (before.addVolume volume).AtMostOne component roles := by
        intro other hother
        have hother : other ∉ [role] := fun hmem => hrole (List.mem_singleton.1 hmem ▸ hother)
        rw [(Holdings.Supplied.one labelled missing).volumesWith_of_not_mem hother]
        exact single other ‹_›
      obtain ⟨first, rest, middle, rfl, resolved, going⟩ := ih distinct.2 single' next
      exact ⟨_ :: _ :: first, rest, middle, rfl, resolved.created missing labelled hrole, going⟩
    | conflict several => omega

/-- Where no role has several volumes, all of them are resolved. -/
theorem Resolving.resolved (distinct : roles.Nodup) (single : before.AtMostOne component roles)
    (resolving : Resolving component roles before calls verdict after) :
    verdict = .ok () ∧ before.Resolved component roles calls after := by
  rw [← List.append_nil roles] at distinct resolving
  obtain ⟨first, rest, middle, rfl, resolved, going⟩ := resolving.split distinct single
  cases going
  exact ⟨rfl, by rwa [List.append_nil]⟩

/-- The first role that has several volumes ends the course, with their number; the roles before it were
resolved. -/
theorem Resolving.conflicting (distinct : (roles ++ role :: others).Nodup)
    (single : before.AtMostOne component roles)
    (several : 2 ≤ (before.volumesWith (role.labels component)).length)
    (resolving : Resolving component (roles ++ role :: others) before calls verdict after) :
    verdict = .error (.duplicateVolumes component role.text
        (before.volumesWith (role.labels component)).length) ∧
      ∃ first, calls = first ++ [.listVolumes (role.labels component)] ∧
        before.Resolved component roles first after := by
  obtain ⟨first, rest, middle, rfl, resolved, going⟩ := resolving.split distinct single
  have hrole : role ∉ roles.filter (before.lacks component) := by
    intro h
    exact (List.nodup_append.1 distinct).2.2 role (List.mem_of_mem_filter h) role List.mem_cons_self rfl
  have hsame := resolved.supplied.volumesWith_of_not_mem hrole
  rw [← hsame] at several ⊢
  cases going with
  | reused only => omega
  | created missing => simp [missing] at several
  | conflict => exact ⟨rfl, first, rfl, resolved⟩

end Course

variable {engine : Conduct}

/-- **Resolving is exact.** A push needs the project source, the supervisor if it has a run command, and
each declared name at its first occurrence. On an engine that answers and on which no call fails, resolving
has a run. If no needed role has several volumes, every run lists each role once, in this order, makes one
volume for each that has none and nothing else, and ends with the names of what are now their only volumes;
resolving once more only looks and finds the same names. Otherwise every run ends at the first role that
has several volumes, with their number, after the roles before it were resolved and with no further call. -/
theorem resolveVolumes_exact (honest : engine.Honest) (faultless : engine.Faultless)
    (answers : ∀ before r, ∃ answer after, engine before r answer after) (ctx : Context)
    (components : List Component) (needsSupervisor : Bool) :
    neededRoles components needsSupervisor = .projectSource ::
      ((if needsSupervisor then [.supervisor] else []) ++
        ((components.flatMap (·.volumeMounts)).map (·.name)).eraseDups.map .storage) ∧
    ∀ before,
      (∃ trace verdict after,
        (resolveVolumes ctx components needsSupervisor).Runs engine before trace verdict after) ∧
      ∀ {trace verdict after},
        (resolveVolumes ctx components needsSupervisor).Runs engine before trace verdict after →
        (before.AtMostOne ctx.component (neededRoles components needsSupervisor) →
          ∃ names, verdict = .ok names ∧
            before.Resolved ctx.component (neededRoles components needsSupervisor)
              (trace.filterMap (·.call?)) after ∧
            names.AreHeld after ctx.component (storageNames components) needsSupervisor ∧
            (resolveVolumes ctx components needsSupervisor).Finds engine after names) ∧
        (¬ before.AtMostOne ctx.component (neededRoles components needsSupervisor) →
          ∃ earlier role later, neededRoles components needsSupervisor = earlier ++ role :: later ∧
            before.AtMostOne ctx.component earlier ∧
            2 ≤ (before.volumesWith (role.labels ctx.component)).length ∧
            verdict = .error (.duplicateVolumes ctx.component role.text
              (before.volumesWith (role.labels ctx.component)).length) ∧
            ∃ first, trace.filterMap (·.call?) = first ++ [.listVolumes (role.labels ctx.component)] ∧
              before.Resolved ctx.component earlier first after) := by
  refine ⟨?_, fun before => ⟨Script.exists_run answers _ before, ?_⟩⟩
  · rw [neededRoles, storageNames_eq]
    rfl
  intro trace verdict after run
  have resolving := resolveVolumes_resolves honest faultless components needsSupervisor run
  have distinct := nodup_neededRoles components needsSupervisor
  constructor
  · intro single
    obtain ⟨hok, resolved⟩ := resolving.resolved distinct single
    cases verdict with
    | error error => cases hok
    | ok names =>
      obtain ⟨held, -⟩ := resolveVolumes_ok honest run
      exact ⟨names, rfl, resolved, held, resolveVolumes_finds honest faultless held⟩
  · intro hnot
    obtain ⟨earlier, role, later, hroles, single, several⟩ := Holdings.exists_several hnot
    rw [hroles] at resolving distinct
    obtain ⟨herror, calls⟩ := resolving.conflicting distinct single several
    refine ⟨earlier, role, later, hroles, single, several, ?_, calls⟩
    cases verdict with
    | ok names => cases herror
    | error error => exact congrArg _ (Except.error.inj herror)

/-! ## A name that two containers share -/

/-- Two containers that share one volume. -/
def sampleSharing : List Component :=
  [{ Component.ofImage "web" "nginx" with volumeMounts := [⟨"cache", "/cache"⟩] },
    { Component.ofImage "worker" "busybox" with volumeMounts := [⟨"data", "/data"⟩, ⟨"cache", "/tmp"⟩] }]

/-- An engine that holds this volume. -/
def sampleShared : Holdings := ⟨[⟨"cache-1", (VolumeRole.storage "cache").labels "shop"⟩], []⟩

/-- Resolving makes the three volumes that are missing and finds the shared one. -/
theorem resolveVolumes_exact_sample : ∃ trace names after,
    (resolveVolumes ⟨"shop", "/shop", .standard⟩ sampleSharing true).Runs MemoryEngine.serving
      sampleShared trace (.ok names) after ∧
    names.AreHeld after "shop" ["cache", "data"] true ∧
    sampleShared.Supplied after "shop" [.projectSource, .supervisor, .storage "data"] := by
  obtain ⟨-, hexact⟩ := resolveVolumes_exact (MemoryEngine.honest_conduct _)
    MemoryEngine.faultless_serving (MemoryEngine.answers_conduct ⟨0, rfl⟩) ⟨"shop", "/shop", .standard⟩
    sampleSharing true
  obtain ⟨⟨trace, verdict, after, run⟩, hall⟩ := hexact sampleShared
  have single : sampleShared.AtMostOne "shop" (neededRoles sampleSharing true) := by
    unfold Holdings.AtMostOne
    decide
  obtain ⟨names, rfl, resolved, held, -⟩ := (hall run).1 single
  exact ⟨trace, names, after, run, held, resolved.supplied⟩

end DevfilePush
