import DevfilePush.Proofs.Engine.Renaming

/-!
# Scripts that do the same up to a renaming

Two scripts are twins where a component holds something if they make the same calls, whatever falls to
these, the first one with the component's part as it is and the second one with it renamed, and if they
end in the same way. That is found by walking through both at once, with every answer that a call can be
given to the first and a matching one to the second.

## Main definitions

* `Script.Twins`: two scripts that do the same up to a renaming.
* `Lot.careful`: an engine that goes by lots whose ids are new.

## Main statements

* `Script.Twins.bind`, `Script.twins_ask`: scripts in sequence, and one call.
* `Script.Twins.sound`: runs of twins leave the same up to the renaming.
* `Script.Twins.exists_run`: where one of them has a run, so has the other.
* `Script.Twins.keepsTo`, `Script.Twins.and_runs`: what else is known of twins.
-/

namespace DevfilePush

variable {commandLine : ContainerConfig → String} {π : Renaming} {component : String} {h : Holdings}

/-- A call and the renamed call are answered with matching replies, or both are refused for the same
reason, or neither is answered. -/
theorem Renaming.answers_cases (commandLine : ContainerConfig → String) {lot : Lot} {r : Request}
    {answer : Answer r.Reply} {answer' : Answer (π.request r).Reply} (keeps : r.KeepsTo component h)
    (ids : h.DistinctIds) (answers : lot.Answers h r answer)
    (answers' : (π.lot lot).Answers (π.holdings h) (π.request r) answer') :
    (∃ reply reply', answer = .reply reply ∧ answer' = .reply reply' ∧
      h.Grants r reply (lot.leaves commandLine h r) ∧ π.Matches r reply reply') ∨
    (∃ reason, answer = .refused reason ∧ answer' = .refused reason) ∨
    (answer = .expired ∧ answer' = .expired) := by
  -- the fate is the same, so only three of the nine cases can be
  have hfate : (π.lot lot).fate = lot.fate := rfl
  have keeps' : (π.request r).KeepsTo component (π.holdings h) := keepsTo_request keeps
  rcases Lot.answers_cases keeps answers with
      ⟨code, reply, hserved, rfl, replies⟩ | ⟨reason, happened, hrefused, rfl⟩ |
        ⟨happened, hexpired, rfl⟩ <;>
    rcases Lot.answers_cases keeps' answers' with
      ⟨code', reply', hserved', rfl, replies'⟩ | ⟨reason', happened', hrefused', rfl⟩ |
        ⟨happened', hexpired', rfl⟩
  case inl.inl =>
    obtain rfl : code = code' := Fate.served.inj (hserved.symm.trans (hfate.symm.trans hserved'))
    refine .inl ⟨reply, reply', rfl, rfl, ?_, matches_of_replies ids replies replies'⟩
    rw [Lot.leaves_of_served hserved]
    exact Lot.grants_effect replies
  case inr.inl.inr.inl =>
    obtain ⟨rfl, -⟩ := Fate.refused.inj (hrefused.symm.trans (hfate.symm.trans hrefused'))
    exact .inr (.inl ⟨reason, rfl, rfl⟩)
  case inr.inr.inr.inr => exact .inr (.inr ⟨rfl, rfl⟩)
  all_goals simp_all

namespace Script

variable {α β γ δ : Type} {R : α → β → Holdings → Prop} {Q : γ → δ → Holdings → Prop}

/-- Where a component holds `h`, the first script does there what the second one does where this is
renamed, and `R` holds of their values if they end with values. -/
def Twins (commandLine : ContainerConfig → String) (π : Renaming) (component : String)
    (R : α → β → Holdings → Prop) : Script α → Script β → Holdings → Prop
  | .done a, .done b, h => R a b h
  | .fail e, .fail e', _ => e' = e
  | .log _ next, .log _ next', h => next.Twins commandLine π component R next' h
  | .call r _ next, .call r' _ next', h => r' = π.request r ∧ r.KeepsTo component h ∧
    ∀ (lot : Lot) answer answer', h.DistinctIds → (lot.leaves commandLine h r).DistinctIds →
      lot.Answers h r answer → (π.lot lot).Answers (π.holdings h) r' answer' →
      (next answer).Twins commandLine π component R (next' answer') (lot.leaves commandLine h r)
  | _, _, _ => False

/-! ## Which scripts are twins -/

theorem twins_done_iff {a : α} {s' : Script β} :
    (done a).Twins commandLine π component R s' h ↔ ∃ b, s' = done b ∧ R a b h := by
  cases s' <;> simp [Twins]

theorem twins_fail_iff {e : PushError} {s' : Script β} :
    (fail e : Script α).Twins commandLine π component R s' h ↔ s' = fail e := by
  cases s' <;> simp [Twins]

theorem twins_log_iff {event : Event} {next : Script α} {s' : Script β} :
    (log event next).Twins commandLine π component R s' h ↔
      ∃ event' next', s' = log event' next' ∧ next.Twins commandLine π component R next' h := by
  cases s' <;> simp [Twins]

theorem twins_call_iff {r : Request} {deadline : Duration} {next : Answer r.Reply → Script α}
    {s' : Script β} :
    (call r deadline next).Twins commandLine π component R s' h ↔ r.KeepsTo component h ∧
      ∃ deadline' next', s' = call (π.request r) deadline' next' ∧
        ∀ (lot : Lot) answer answer', h.DistinctIds → (lot.leaves commandLine h r).DistinctIds →
          lot.Answers h r answer → (π.lot lot).Answers (π.holdings h) (π.request r) answer' →
          (next answer).Twins commandLine π component R (next' answer')
            (lot.leaves commandLine h r) := by
  constructor
  · intro twins
    cases s' with
    | done | fail | log => exact twins.elim
    | call r' deadline' next' =>
      obtain ⟨rfl, keeps, hnext⟩ := twins
      exact ⟨keeps, deadline', next', rfl, hnext⟩
  · rintro ⟨keeps, deadline', next', rfl, hnext⟩
    exact ⟨rfl, keeps, hnext⟩

/-! ## How scripts are put together -/

theorem Twins.bind {s : Script α} {s' : Script β} {f : α → Script γ} {f' : β → Script δ}
    (hs : s.Twins commandLine π component R s' h)
    (hf : ∀ a b k, R a b k → (f a).Twins commandLine π component Q (f' b) k) :
    (s >>= f).Twins commandLine π component Q (s' >>= f') h := by
  induction s generalizing s' h with
  | done a =>
    obtain ⟨b, rfl, hR⟩ := twins_done_iff.1 hs
    exact hf a b h hR
  | fail e =>
    obtain rfl := twins_fail_iff.1 hs
    exact rfl
  | log event next ih =>
    obtain ⟨event', next', rfl, hnext⟩ := twins_log_iff.1 hs
    exact ih hnext
  | call r deadline next ih =>
    obtain ⟨keeps, deadline', next', rfl, hnext⟩ := twins_call_iff.1 hs
    exact ⟨rfl, keeps, fun lot answer answer' ids ids' answers answers' =>
      ih answer (hnext lot answer answer' ids ids' answers answers')⟩

theorem Twins.closing {s : Script α} {s' : Script β} (hs : s.Twins commandLine π component R s' h)
    (message : String) :
    (s.closing message).Twins commandLine π component R (s'.closing message) h := by
  induction s generalizing s' h with
  | done a =>
    obtain ⟨b, rfl, hR⟩ := twins_done_iff.1 hs
    exact hR
  | fail e =>
    obtain rfl := twins_fail_iff.1 hs
    exact rfl
  | log event next ih =>
    obtain ⟨event', next', rfl, hnext⟩ := twins_log_iff.1 hs
    exact ih hnext
  | call r deadline next ih =>
    obtain ⟨keeps, deadline', next', rfl, hnext⟩ := twins_call_iff.1 hs
    exact ⟨rfl, keeps, fun lot answer answer' ids ids' answers answers' =>
      ih answer (hnext lot answer answer' ids ids' answers answers')⟩

theorem Twins.step {s : Script α} {s' : Script β} (hs : s.Twins commandLine π component R s' h)
    (message : String) :
    (step message s).Twins commandLine π component R (step message s') h := hs.closing message

/-- What is logged does not matter. -/
theorem twins_note_bind {event event' : Event} {f : Unit → Script γ} {f' : Unit → Script δ}
    (hf : (f ()).Twins commandLine π component Q (f' ()) h) :
    (note event >>= f).Twins commandLine π component Q (note event' >>= f') h := hf

theorem twins_notes_bind {events : List Event} {f : Unit → Script γ} {f' : Unit → Script δ}
    (hf : (f ()).Twins commandLine π component Q (f' ()) h) :
    (notes events >>= f).Twins commandLine π component Q (notes events >>= f') h := by
  induction events with
  | nil => exact hf
  | cons event events ih => exact ih

/-- Computations without effects that end in the same way, up to what becomes of a value. -/
theorem twins_ofExcept_bind {x : Except PushError α} {x' : Except PushError β} {g : α → β}
    {f : α → Script γ} {f' : β → Script δ} (same : x' = x.map g)
    (hf : ∀ a, x = .ok a → (f a).Twins commandLine π component Q (f' (g a)) h) :
    (ofExcept x >>= f).Twins commandLine π component Q (ofExcept x' >>= f') h := by
  subst same
  cases x with
  | ok a => exact hf a rfl
  | error e => exact rfl

/-- A call that keeps to the component, and what is known of matching replies to it. -/
theorem twins_ask {name : String} {deadline : Duration} {r : Request}
    {R : r.Reply → (π.request r).Reply → Holdings → Prop} (keeps : r.KeepsTo component h)
    (tells : ∀ reply reply' after, h.DistinctIds → h.Grants r reply after → π.Matches r reply reply' →
      R reply reply' after) :
    (ask name deadline r).Twins commandLine π component R (ask name deadline (π.request r)) h := by
  refine ⟨rfl, keeps, fun lot answer answer' ids _ answers answers' => ?_⟩
  rcases Renaming.answers_cases commandLine keeps ids answers answers' with
    ⟨reply, reply', rfl, rfl, granted, hmatches⟩ | ⟨reason, rfl, rfl⟩ | ⟨rfl, rfl⟩
  · exact tells reply reply' _ ids granted hmatches
  · exact congrArg (PushError.callRefused · name reason) Renaming.operation_request
  · exact congrArg (fun operation => PushError.callExpired (operation ++ " (" ++ name ++ ")") deadline)
      Renaming.operation_request

/-! ## What twins do -/

/-- The calls of a twin keep to the component. -/
theorem Twins.keepsTo {s : Script α} {s' : Script β} (twins : s.Twins commandLine π component R s' h) :
    s.KeepsTo commandLine component h := by
  induction s generalizing s' h with
  | done | fail => trivial
  | log event next ih =>
    obtain ⟨event', next', rfl, hnext⟩ := twins_log_iff.1 twins
    exact ih hnext
  | call r deadline next ih =>
    obtain ⟨keeps, deadline', next', rfl, hnext⟩ := twins_call_iff.1 twins
    refine ⟨keeps, fun lot answer ids ids' answers => ?_⟩
    obtain ⟨answer', answers'⟩ := (π.lot lot).exists_answers (π.holdings h) (π.request r)
    exact ih answer (hnext lot answer answer' ids ids' answers answers')

/-- Runs of twins to which the same falls up to a renaming leave the same up to the renaming and end in
the same way. -/
theorem Twins.sound {s : Script α} {s' : Script β} (twins : s.Twins commandLine π component R s' h)
    {lots : List Lot} (fresh : (h.ids ++ lots.map (·.id)).Nodup)
    {verdict : Except PushError α} {after : Holdings}
    (run : s.Undergoes commandLine lots h verdict after)
    {verdict' : Except PushError β} {after' : Holdings}
    (run' : s'.Undergoes commandLine (lots.map π.lot) (π.holdings h) verdict' after') :
    after' = π.holdings after ∧
      ((∃ a b, verdict = .ok a ∧ verdict' = .ok b ∧ R a b after) ∨
        ∃ error, verdict = .error error ∧ verdict' = .error error) := by
  induction s generalizing s' h lots with
  | done a =>
    obtain ⟨b, rfl, hR⟩ := twins_done_iff.1 twins
    obtain ⟨rfl, rfl⟩ := run
    obtain ⟨rfl, rfl⟩ := run'
    exact ⟨rfl, .inl ⟨a, b, rfl, rfl, hR⟩⟩
  | fail e =>
    obtain rfl := twins_fail_iff.1 twins
    obtain ⟨rfl, rfl⟩ := run
    obtain ⟨rfl, rfl⟩ := run'
    exact ⟨rfl, .inr ⟨e, rfl, rfl⟩⟩
  | log event next ih =>
    obtain ⟨event', next', rfl, hnext⟩ := twins_log_iff.1 twins
    exact ih hnext fresh run run'
  | call r deadline next ih =>
    obtain ⟨keeps, deadline', next', rfl, hnext⟩ := twins_call_iff.1 twins
    obtain ⟨lot, rest, answer, rfl, answers, hrun⟩ := run
    obtain ⟨lot', rest', answer', hlots, answers', hrun'⟩ := run'
    obtain ⟨rfl, rfl⟩ := List.cons.inj hlots
    have fresh' := nodup_ids_leaves commandLine fresh r
    rw [Renaming.leaves_holdings] at hrun'
    exact ih answer (hnext lot answer answer' (distinctIds_of_nodup fresh)
      (distinctIds_of_nodup fresh') answers answers') fresh' hrun hrun'

/-- Where the first of two twins has a run in the component's part, the second one has a run in any
holdings of which this part, renamed, is the component's. -/
theorem Twins.exists_run {s : Script α} {s' : Script β} (twins : s.Twins commandLine π component R s' h)
    {lots : List Lot} (fresh : (h.ids ++ lots.map (·.id)).Nodup)
    {verdict : Except PushError α} {after : Holdings}
    (run : s.Undergoes commandLine lots h verdict after) {k : Holdings}
    (part : k.part (some component) = π.holdings h)
    (fresh' : (k.ids ++ (lots.map π.lot).map (·.id)).Nodup) :
    ∃ verdict' after', s'.Undergoes commandLine (lots.map π.lot) k verdict' after' := by
  induction s generalizing s' h k lots with
  | done a =>
    obtain ⟨b, rfl, -⟩ := twins_done_iff.1 twins
    exact ⟨.ok b, k, rfl, rfl⟩
  | fail e =>
    obtain rfl := twins_fail_iff.1 twins
    exact ⟨.error e, k, rfl, rfl⟩
  | log event next ih =>
    obtain ⟨event', next', rfl, hnext⟩ := twins_log_iff.1 twins
    exact ih hnext fresh run part fresh'
  | call r deadline next ih =>
    obtain ⟨keeps, deadline', next', rfl, hnext⟩ := twins_call_iff.1 twins
    obtain ⟨lot, rest, answer, rfl, answers, hrun⟩ := run
    have keeps' : (π.request r).KeepsTo component (k.part (some component)) :=
      part ▸ Renaming.keepsTo_request keeps
    obtain ⟨answer', answers'⟩ := (π.lot lot).exists_answers k (π.request r)
    have hpart : (π.lot lot).Answers (π.holdings h) (π.request r) answer' :=
      part ▸ Lot.answers_part (distinctIds_of_nodup fresh') keeps' answers'
    have left := nodup_ids_leaves commandLine fresh r
    have twins' := hnext lot answer answer' (distinctIds_of_nodup fresh) (distinctIds_of_nodup left)
      answers hpart
    have part' : ((π.lot lot).leaves commandLine k (π.request r)).part (some component) =
        π.holdings (lot.leaves commandLine h r) := by
      rw [Lot.part_leaves keeps', part, Renaming.leaves_holdings]
    obtain ⟨verdict', after', hrun'⟩ :=
      ih answer twins' left hrun part' (nodup_ids_leaves commandLine fresh' _)
    exact ⟨verdict', after', π.lot lot, rest.map π.lot, answer', rfl, answers', hrun'⟩

end Script

/-! ## What is known of all runs -/

/-- An engine that goes by lots whose ids are new. -/
def Lot.careful (commandLine : ContainerConfig → String) : Conduct := fun before r answer after =>
  Lot.conduct commandLine before r answer after ∧ (before.DistinctIds → after.DistinctIds)

theorem Lot.honest_careful (commandLine : ContainerConfig → String) : (careful commandLine).Honest where
  granted met := (honest_conduct commandLine).granted met.1
  effect met := (honest_conduct commandLine).effect met.1

theorem Lot.keepsIds_careful (commandLine : ContainerConfig → String) :
    (careful commandLine).KeepsIds := fun _ _ _ _ met => met.2

/-- What holds whenever the first of two twins succeeds may be added to what is known of its value. -/
theorem Script.Twins.and_runs {α β : Type} {R : α → β → Holdings → Prop} {s : Script α} {s' : Script β}
    (twins : s.Twins commandLine π component R s' h) {Q : α → Holdings → Prop}
    (holds : ∀ trace a after, s.Runs (Lot.careful commandLine) h trace (.ok a) after → Q a after) :
    s.Twins commandLine π component (fun a b k => R a b k ∧ Q a k) s' h := by
  induction s generalizing s' h with
  | done a =>
    obtain ⟨b, rfl, hR⟩ := twins_done_iff.1 twins
    exact ⟨hR, holds [] a h ⟨rfl, rfl, rfl⟩⟩
  | fail e =>
    obtain rfl := twins_fail_iff.1 twins
    exact rfl
  | log event next ih =>
    obtain ⟨event', next', rfl, hnext⟩ := twins_log_iff.1 twins
    exact ih hnext fun trace a after run => holds _ a after ⟨trace, rfl, run⟩
  | call r deadline next ih =>
    obtain ⟨keeps, deadline', next', rfl, hnext⟩ := twins_call_iff.1 twins
    refine ⟨rfl, keeps, fun lot answer answer' ids ids' answers answers' => ?_⟩
    refine ih answer (hnext lot answer answer' ids ids' answers answers') fun trace a after run => ?_
    exact holds _ a after ⟨answer, _, trace, ⟨⟨lot, answers, rfl⟩, fun _ => ids'⟩, rfl, run⟩

end DevfilePush
