import DevfilePush.Proofs.Engine.Runs
import DevfilePush.Simulation.Run

/-!
# Steps are nested

A step is opened by an event and closed by another one with the same message, and what is opened in
between is closed in between. A script that opens steps around some of its parts logs a nested sequence
however it ends. If it ends with a value, no step has failed; if it ends with an error, the steps that
were open when it came up fail, from the innermost to the outermost, and nothing else is logged after
that.

## Main definitions

* `Event.Nested`: a sequence of events in which every step is closed where it belongs.
* `Event.Leaves`: what is logged before steps fail, and the steps that it leaves open.
* `Script.Tells`: how a script can leave its steps, and how many containers it can have started.

## Main statements

* `Event.Nested.openAfter`: a nested sequence leaves open what was open before.
* `Script.Tells.bind`, `Script.Tells.step`: scripts in sequence, and within a step.
* `Script.Logs.tells`, `Script.Logs.tells_bind`: a script without steps of its own.
-/

namespace DevfilePush

namespace Event

/-- Whether an event tells that a step was given up. -/
def isFailure : Event → Bool
  | .failed _ => true
  | _ => false

/-- Whether an event tells that a container was started. -/
def startsContainer : Event → Bool
  | .finished step => "Starting container for ".toList.isPrefixOf step.toList
  | _ => false

/-- A sequence of events in which every step that is opened is closed by exactly one event with its
message, after all steps that were opened since. -/
inductive Nested : List Event → Prop
  | nil : Nested []
  | plain {event : Event} {log : List Event} (quiet : event.isStep = false) (rest : Nested log) :
      Nested (event :: log)
  | step {inner log : List Event} (message : String) (succeeded : Bool) (within : Nested inner)
      (rest : Nested log) : Nested (.started message :: (inner ++ .closing message succeeded :: log))

/-- What is logged before steps fail: nothing has failed, and these steps, innermost first, have been
opened and not closed. -/
structure Leaves (front : List Event) (steps : List String) : Prop where
  succeeding : ∀ event ∈ front, event.isFailure = false
  opened : ∀ outer, front.foldl openAfter outer = steps ++ outer

variable {log log' front : List Event} {steps : List String} {event : Event}

theorem openAfter_of_quiet (quiet : event.isStep = false) (outer : List String) :
    openAfter outer event = outer := by
  cases event <;> first | rfl | cases quiet

theorem isFailure_of_quiet (quiet : event.isStep = false) : event.isFailure = false := by
  cases event <;> first | rfl | cases quiet

theorem startsContainer_of_quiet (quiet : event.isStep = false) : event.startsContainer = false := by
  cases event <;> first | rfl | cases quiet

@[simp] theorem openAfter_started (outer : List String) (message : String) :
    openAfter outer (.started message) = message :: outer := rfl

@[simp] theorem openAfter_closing (outer : List String) (message : String) (succeeded : Bool) :
    openAfter outer (.closing message succeeded) = outer.tail := by
  cases succeeded <;> rfl

namespace Nested

/-- What comes without steps is nested. -/
theorem of_quiet (quiet : ∀ event ∈ log, event.isStep = false) : Nested log := by
  induction log with
  | nil => exact .nil
  | cons event log ih =>
    rw [List.forall_mem_cons] at quiet
    exact .plain quiet.1 (ih quiet.2)

theorem append (h : Nested log) (h' : Nested log') : Nested (log ++ log') := by
  induction h with
  | nil => exact h'
  | plain quiet _ ih => exact .plain quiet ih
  | step message succeeded within _ _ ih =>
    rw [List.cons_append, List.append_assoc, List.cons_append]
    exact .step message succeeded within ih

/-- A nested sequence leaves open what was open before. -/
theorem openAfter (h : Nested log) (outer : List String) :
    log.foldl Event.openAfter outer = outer := by
  induction h generalizing outer with
  | nil => rfl
  | plain quiet _ ih => rw [List.foldl_cons, openAfter_of_quiet quiet, ih]
  | step message succeeded _ _ ihWithin ihRest =>
    rw [List.foldl_cons, List.foldl_append, List.foldl_cons, ihWithin, openAfter_closing,
      openAfter_started, List.tail_cons, ihRest]

end Nested

namespace Leaves

theorem of_quiet (quiet : ∀ event ∈ log, event.isStep = false) : Leaves log [] where
  succeeding event h := isFailure_of_quiet (quiet event h)
  opened outer := (Nested.of_quiet quiet).openAfter outer

/-- What succeeds and closes its own steps may come before. -/
theorem append (nested : Nested log) (succeeding : ∀ event ∈ log, event.isFailure = false)
    (h : Leaves front steps) : Leaves (log ++ front) steps where
  succeeding event hevent := (List.mem_append.1 hevent).elim (succeeding event) (h.succeeding event)
  opened outer := by rw [List.foldl_append, nested.openAfter, h.opened]

/-- A step that was opened before stays open. -/
theorem started (h : Leaves front steps) (message : String) :
    Leaves (.started message :: front) (steps ++ [message]) where
  succeeding := List.forall_mem_cons.2 ⟨rfl, h.succeeding⟩
  opened outer := by
    rw [List.foldl_cons, openAfter_started, h.opened, List.append_assoc, List.singleton_append]

/-- The steps that are left are those that fail. -/
theorem filter_isFailure (h : Leaves front steps) :
    (front ++ steps.map failed).filter isFailure = steps.map failed := by
  have hfront : front.filter isFailure = [] := by
    simpa [List.filter_eq_nil_iff] using h.succeeding
  have hsteps : (steps.map failed).filter isFailure = steps.map failed := by
    rw [List.filter_eq_self]
    intro event hevent
    obtain ⟨step, -, rfl⟩ := List.mem_map.1 hevent
    rfl
  rw [List.filter_append, hfront, hsteps, List.nil_append]

end Leaves

end Event

/-- The log of a trace. -/
def Happening.log (trace : List Happening) : List Event := trace.filterMap (·.event?)

namespace Happening

@[simp] theorem log_append (a b : List Happening) : log (a ++ b) = log a ++ log b :=
  List.filterMap_append

@[simp] theorem log_logged (event : Event) (trace : List Happening) :
    log (logged event :: trace) = event :: log trace := rfl

@[simp] theorem log_nil : log [] = [] := rfl

theorem mem_log {trace : List Happening} {event : Event} : event ∈ log trace ↔ logged event ∈ trace := by
  rw [log, List.mem_filterMap]
  constructor
  · rintro ⟨x, hx, hevent⟩
    cases x with
    | logged other => exact Option.some.inj hevent ▸ hx
    | answered => cases hevent
  · exact fun h => ⟨_, h, rfl⟩

end Happening

namespace Script

variable {α β : Type}

/-- What a script tells of steps by the way it ends. With a value, nothing has failed and so many
containers were started; with an error, it ends by giving up the steps that it leaves, if any. -/
def Told (leaves : List String → Prop) (starts : α → Nat → Prop) (log : List Event) :
    Except PushError α → Prop
  | .ok value =>
    (∀ event ∈ log, event.isFailure = false) ∧ starts value (log.countP (·.startsContainer))
  | .error _ => ∃ front steps, (steps = [] ∨ leaves steps) ∧ Event.Leaves front steps ∧
    log = front ++ steps.map .failed

/-- Every run of a script logs nested steps, leaves only such steps to be given up, and starts so many
containers if it ends with a value. -/
def Tells (leaves : List String → Prop) (starts : α → Nat → Prop) (s : Script α) : Prop :=
  ∀ ⦃engine : Conduct⦄ ⦃before after : Holdings⦄ ⦃trace : List Happening⦄
    ⦃verdict : Except PushError α⦄, s.Runs engine before trace verdict after →
      Event.Nested (Happening.log trace) ∧ Told leaves starts (Happening.log trace) verdict

variable {leaves others : List String → Prop} {starts : α → Nat → Prop} {startsThen : β → Nat → Prop}

theorem Tells.mono {starts' : α → Nat → Prop} {s : Script α} (hs : s.Tells leaves starts)
    (hleaves : ∀ steps, leaves steps → others steps)
    (hstarts : ∀ value n, starts value n → starts' value n) : s.Tells others starts' := by
  intro engine before after trace verdict run
  obtain ⟨nested, told⟩ := hs run
  refine ⟨nested, ?_⟩
  cases verdict with
  | ok value => exact ⟨told.1, hstarts value _ told.2⟩
  | error e =>
    obtain ⟨front, steps, hsteps, h⟩ := told
    exact ⟨front, steps, hsteps.imp_right (hleaves steps), h⟩

/-- Whatever has no steps is put together from parts without steps. -/
theorem plain_logs_quiet : Plain fun _ s => s.Logs (·.isStep = false) := plain_logs fun _ => id

/-- A script without steps leaves none and starts nothing. -/
theorem Logs.tells {s : Script α} (hs : s.Logs (·.isStep = false))
    (hstarts : ∀ value, starts value 0) : s.Tells leaves starts := by
  intro engine before after trace verdict run
  have quiet : ∀ event ∈ Happening.log trace, event.isStep = false :=
    fun event h => run.logged hs event (Happening.mem_log.1 h)
  refine ⟨.of_quiet quiet, ?_⟩
  cases verdict with
  | ok value =>
    have hcount : (Happening.log trace).countP (·.startsContainer) = 0 := by
      rw [List.countP_eq_zero]
      intro event h
      simp [Event.startsContainer_of_quiet (quiet event h)]
    exact ⟨fun event h => Event.isFailure_of_quiet (quiet event h), hcount ▸ hstarts value⟩
  | error e => exact ⟨_, [], .inl rfl, .of_quiet quiet, (List.append_nil _).symm⟩

theorem tells_done {value : α} (hstarts : starts value 0) :
    (done value).Tells leaves starts := by
  rintro engine before after trace verdict ⟨rfl, rfl, rfl⟩
  exact ⟨.nil, by simp, hstarts⟩

theorem tells_fail {error : PushError} : (fail error : Script α).Tells leaves starts := by
  rintro engine before after trace verdict ⟨rfl, rfl, rfl⟩
  exact ⟨.nil, [], [], .inl rfl, .of_quiet (by simp), rfl⟩

/-- Scripts in sequence leave what either leaves, and start what both start. -/
theorem Tells.bind {s : Script α} {f : α → Script β} (hs : s.Tells leaves starts)
    (hf : ∀ value n, starts value n → (f value).Tells leaves fun result m => startsThen result (n + m)) :
    (s >>= f).Tells leaves startsThen := by
  intro engine before after trace verdict run
  rcases runs_bind_iff.1 run with ⟨e, rfl, hfirst⟩ | ⟨value, middle, t₁, t₂, hfirst, hsecond, rfl⟩
  · obtain ⟨nested, told⟩ := hs hfirst
    exact ⟨nested, told⟩
  obtain ⟨nested, succeeding, hstarts⟩ := hs hfirst
  obtain ⟨nested', told⟩ := hf value _ hstarts hsecond
  rw [Happening.log_append]
  refine ⟨nested.append nested', ?_⟩
  cases verdict with
  | ok result =>
    refine ⟨fun event h => (List.mem_append.1 h).elim (succeeding event) (told.1 event), ?_⟩
    rw [List.countP_append]
    exact told.2
  | error e =>
    obtain ⟨front, steps, hsteps, hleaves, hlog⟩ := told
    exact ⟨_, steps, hsteps, hleaves.append nested succeeding, by rw [hlog, List.append_assoc]⟩

/-- A script without steps may come first. -/
theorem Logs.tells_bind {s : Script α} {f : α → Script β} (hs : s.Logs (·.isStep = false))
    (hf : ∀ value, (f value).Tells leaves startsThen) : (s >>= f).Tells leaves startsThen := by
  have hfirst : s.Tells leaves fun _ n => n = 0 := hs.tells fun _ => rfl
  refine hfirst.bind fun value n hn => ?_
  simp only [hn, Nat.zero_add]
  exact hf value

/-- Within a step, what is left is left within it, and the step is left too. -/
theorem Tells.step {s : Script α} {message : String} {n : Nat} (hs : s.Tells leaves starts)
    (hcount : [Event.finished message].countP (·.startsContainer) = n)
    (hleaves : ∀ steps, steps = [] ∨ leaves steps → others (steps ++ [message])) :
    (Script.step message s).Tells others fun value m => ∃ k, starts value k ∧ m = k + n := by
  intro engine before after trace verdict run
  obtain ⟨inner, hinner, rfl⟩ := runs_step_iff.1 run
  obtain ⟨nested, told⟩ := hs hinner
  rw [Happening.log_logged, Happening.log_append, Happening.log_logged, Happening.log_nil]
  refine ⟨.step message verdict.isOk nested .nil, ?_⟩
  cases verdict with
  | ok value =>
    refine ⟨?_, _, told.2, ?_⟩
    · simp only [List.mem_cons, List.mem_append, List.not_mem_nil, or_false]
      rintro event (rfl | h | rfl)
      · rfl
      · exact told.1 event h
      · rfl
    · rw [List.countP_cons_of_neg (by simp [Event.startsContainer]), List.countP_append]
      exact congrArg _ hcount
  | error e =>
    obtain ⟨front, steps, hsteps, hfront, hlog⟩ := told
    refine ⟨_, steps ++ [message], .inr (hleaves steps hsteps), hfront.started message, ?_⟩
    rw [hlog, List.map_append, List.cons_append, List.append_assoc]
    rfl

end Script

end DevfilePush
