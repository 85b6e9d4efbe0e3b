import DevfilePush.Proofs.Engine.Runs

/-!
# Scripts that only look

Where everything is as a script wants it, the script asks, finds it so and makes nothing. `Finds` says
this of a script and an engine: every run ends with the one value, leaves all that the engine holds as
it was and has no calls but listings and inspections. Scripts in sequence find what each of them finds.

## Main definitions

* `Request.looks`, `Request.executes`, `Request.onVolumes`, `Request.creates`: calls that list or inspect,
  that execute words, that are about volumes and that ask for a container.
* `Script.Finds`: every run finds the value and only looks.

## Main statements

* `Script.Finds.bind`, `Script.finds_ask`: finding in sequence, and by one call.
-/

namespace DevfilePush

/-- Whether a call only lists or inspects. -/
def Request.looks : Request → Bool
  | .listVolumes _ | .listContainers _ | .inspectContainer _ => true
  | .createVolume .. | .pullImage _ | .createContainer _ | .removeContainer _ | .exec .. => false

/-- Whether a call executes words in a container. -/
def Request.executes : Request → Bool
  | .exec .. => true
  | .listVolumes _ | .createVolume .. | .pullImage _ | .createContainer _ | .removeContainer _
  | .listContainers _ | .inspectContainer _ => false

/-- Whether a call lists or makes volumes. -/
def Request.onVolumes : Request → Bool
  | .listVolumes _ | .createVolume .. => true
  | .pullImage _ | .createContainer _ | .removeContainer _ | .listContainers _
  | .inspectContainer _ | .exec .. => false

/-- Whether a call asks for a new container. -/
def Request.creates : Request → Bool
  | .createContainer _ => true
  | .listVolumes _ | .createVolume .. | .pullImage _ | .removeContainer _ | .listContainers _
  | .inspectContainer _ | .exec .. => false

/-- A call that looks makes and removes nothing. -/
theorem Request.alters_of_looks {r : Request} (h : r.looks = true) : r.alters = false := by
  cases r <;> first | rfl | cases h

/-- What asks for volumes executes nothing. -/
theorem Request.executes_of_onVolumes {r : Request} (h : r.onVolumes = true) : r.executes = false := by
  cases r <;> first | rfl | cases h

namespace Script

variable {α β : Type} {engine : Conduct} {h : Holdings}

/-- Every run of the script ends with the value, changes nothing and only looks. -/
def Finds (engine : Conduct) (h : Holdings) (s : Script α) (value : α) : Prop :=
  ∀ ⦃trace : List Happening⦄ ⦃verdict : Except PushError α⦄ ⦃after : Holdings⦄,
    s.Runs engine h trace verdict after →
      verdict = .ok value ∧ after = h ∧ ∀ r ∈ trace.filterMap (·.call?), r.looks = true

theorem finds_done (value : α) : (done value).Finds engine h value := by
  rintro trace verdict after ⟨rfl, rfl, rfl⟩
  exact ⟨rfl, rfl, by simp⟩

theorem finds_note (event : Event) : (note event).Finds engine h () := by
  intro trace verdict after run
  obtain ⟨rfl, rfl, rfl⟩ := runs_note.1 run
  exact ⟨rfl, rfl, by simp [Happening.call?]⟩

theorem finds_notes (events : List Event) : (notes events).Finds engine h () := by
  intro trace verdict after run
  obtain ⟨rfl, rfl, rfl⟩ := runs_notes.1 run
  refine ⟨rfl, rfl, ?_⟩
  simp [List.filterMap_map, Happening.call?]

theorem finds_ofExcept {x : Except PushError α} {value : α} (hx : x = .ok value) :
    (ofExcept x).Finds engine h value := by
  subst hx
  exact finds_done value

/-- A script that finds a value goes on as it does with that value. -/
theorem Finds.bind {s : Script α} {f : α → Script β} {value : α} {result : β}
    (hs : s.Finds engine h value) (hf : (f value).Finds engine h result) :
    (s >>= f).Finds engine h result := by
  intro trace verdict after run
  rcases runs_bind_iff.1 run with ⟨error, rfl, hrun⟩ | ⟨v, middle, t₁, t₂, h₁, h₂, rfl⟩
  · cases (hs hrun).1
  · obtain ⟨hv, rfl, hlooks₁⟩ := hs h₁
    obtain rfl := Except.ok.inj hv
    obtain ⟨rfl, rfl, hlooks₂⟩ := hf h₂
    refine ⟨rfl, rfl, fun r hr => ?_⟩
    rw [List.filterMap_append, List.mem_append] at hr
    exact hr.elim (hlooks₁ r) (hlooks₂ r)

/-- A call that looks, and that can be granted with one reply only, finds that reply. -/
theorem finds_ask (honest : engine.Honest) (faultless : engine.Faultless) {request : Request}
    {reply : request.Reply} (looks : request.looks = true) (possible : h.Grants request reply h)
    (only : ∀ {other after}, h.Grants request other after → other = reply)
    (component : String) (deadline : Duration) :
    (ask component deadline request).Finds engine h reply := by
  intro trace verdict after run
  obtain ⟨other, rfl, granted, rfl⟩ := runs_ask_granted honest faultless ⟨reply, h, possible⟩ run
  obtain rfl := only granted
  refine ⟨rfl, Holdings.eq_of_grants granted (Request.alters_of_looks looks), ?_⟩
  simp [Happening.call?, looks]

end Script

end DevfilePush
