import DevfilePush.Proofs.Engine.Runs

/-!
# How a script can end

Which errors a script can end with, and with which values, is found by walking through it with every
answer that its calls could be given. Nothing is assumed of an engine, so what is found holds of runs
against all of them, also of those that answer calls wrongly.

## Main definitions

* `Script.Ends`: every end of a script is one of these errors or one of these values.

## Main statements

* `Script.Ends.bind`: scripts in sequence.
* `Script.Ends.verdict`: a run ends in one of these ways.
-/

namespace DevfilePush.Script

variable {α β : Type} {errors others : PushError → Prop} {P Q : α → Prop} {R : β → Prop}

/-- However its calls are answered, the script ends with one of these errors or one of these values. -/
def Ends (errors : PushError → Prop) (values : α → Prop) : Script α → Prop
  | .done value => values value
  | .fail error => errors error
  | .log _ next => next.Ends errors values
  | .call _ _ next => ∀ answer, (next answer).Ends errors values

theorem Ends.bind {s : Script α} {f : α → Script β} (hs : s.Ends errors P)
    (hf : ∀ value, P value → (f value).Ends errors R) : (s >>= f).Ends errors R := by
  induction s with
  | done value => exact hf value hs
  | fail error => exact hs
  | log event next ih => exact ih hs
  | call request deadline next ih => exact fun answer => ih answer (hs answer)

theorem Ends.mono {s : Script α} (hs : s.Ends errors P) (herrors : ∀ e, errors e → others e)
    (hvalues : ∀ value, P value → Q value) : s.Ends others Q := by
  induction s with
  | done value => exact hvalues value hs
  | fail error => exact herrors error hs
  | log event next ih => exact ih hs
  | call request deadline next ih => exact fun answer => ih answer (hs answer)

theorem Ends.closing {s : Script α} (hs : s.Ends errors P) (message : String) :
    (s.closing message).Ends errors P := by
  induction s with
  | done value => exact hs
  | fail error => exact hs
  | log event next ih => exact ih hs
  | call request deadline next ih => exact fun answer => ih answer (hs answer)

theorem Ends.step {s : Script α} (hs : s.Ends errors P) (message : String) :
    (step message s).Ends errors P := hs.closing message

theorem ends_notes (events : List Event) : (notes events).Ends errors fun _ => True := by
  induction events with
  | nil => trivial
  | cons event events ih => exact ih

theorem ends_ofExcept {x : Except PushError α} (hvalue : ∀ value, x = .ok value → P value)
    (herror : ∀ error, x = .error error → errors error) : (ofExcept x).Ends errors P := by
  cases x with
  | ok value => exact hvalue value rfl
  | error error => exact herror error rfl

/-- A call ends with some reply or with one of the two errors that tell of it. -/
theorem ends_ask {component : String} {deadline : Duration} {request : Request}
    (refused : ∀ reason, errors (.callRefused request.operation component reason))
    (expired : errors (.callExpired (request.operation ++ " (" ++ component ++ ")") deadline)) :
    (ask component deadline request).Ends errors fun _ => True := by
  intro answer
  cases answer with
  | reply value => trivial
  | refused reason => exact refused reason
  | expired => exact expired

section

variable {s : Script α} {engine : Conduct} {before after : Holdings} {trace : List Happening}

/-- A run of the script ends in one of its ways, whatever the engine does. -/
theorem Ends.verdict (hs : s.Ends errors P) {verdict : Except PushError α}
    (run : s.Runs engine before trace verdict after) :
    (∃ value, verdict = .ok value ∧ P value) ∨ ∃ error, verdict = .error error ∧ errors error := by
  induction s generalizing before trace with
  | done value =>
    obtain ⟨-, rfl, -⟩ := run
    exact .inl ⟨value, rfl, hs⟩
  | fail error =>
    obtain ⟨-, rfl, -⟩ := run
    exact .inr ⟨error, rfl, hs⟩
  | log event next ih =>
    obtain ⟨rest, -, hnext⟩ := run
    exact ih hs hnext
  | call request deadline next ih =>
    obtain ⟨answer, middle, rest, -, -, hnext⟩ := run
    exact ih answer (hs answer) hnext

theorem Ends.of_ok (hs : s.Ends errors P) {value : α}
    (run : s.Runs engine before trace (.ok value) after) : P value := by
  rcases hs.verdict run with ⟨_, hok, hvalue⟩ | ⟨_, herror, -⟩
  · exact Except.ok.inj hok ▸ hvalue
  · cases herror

theorem Ends.of_error (hs : s.Ends errors P) {error : PushError}
    (run : s.Runs engine before trace (.error error) after) : errors error := by
  rcases hs.verdict run with ⟨_, hok, -⟩ | ⟨_, herror, hfails⟩
  · cases hok
  · exact Except.error.inj herror ▸ hfails

end

end DevfilePush.Script
