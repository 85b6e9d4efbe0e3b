import DevfilePush.Proofs.Container.Realize
import DevfilePush.Proofs.Volume.Resolve

/-!
# What a push does to others, and what it relies on

While a push works for its component, pushes of other components work too, and the push relies on one
thing: they never give its component a container or a volume. In return it gives nothing to another
component, and it makes a container or a volume for its own only where it has seen that there is none,
which stays so as long as the others keep to this. A script abides by it if it does in whatever way the
others and the engine go on; what it has learnt at some point must not be undone by the others.

## Main definitions

* `Holdings.NoMore`: a component has been given nothing.
* `Holdings.Keeps`: what one call of a component may bring about.
* `Script.Abides`, `Script.Careful`: a script abides where the engine holds something, or anywhere.

## Main statements

* `Script.Abides.stable`: what others do does not keep a script from abiding.
* `Script.Abides.bind`, `Script.abides_ask`: scripts in sequence, and single calls.
-/

namespace DevfilePush

namespace Holdings

/-- A component has been given nothing: it has no container or volume that it did not have before. -/
structure NoMore (after before : Holdings) (component : String) : Prop where
  containers : ∀ aliasName,
    (after.ofAlias component aliasName).Sublist (before.ofAlias component aliasName)
  volumes : ∀ role : VolumeRole,
    (after.volumesWith (role.labels component)).Sublist (before.volumesWith (role.labels component))

/-- What a call of a component may bring about: nothing is given to any other component, and nothing to
an alias or a role of its own that has something already. -/
structure Keeps (before after : Holdings) (component : String) : Prop where
  others : ∀ other ≠ component, after.NoMore before other
  containers : ∀ aliasName, (after.ofAlias component aliasName).length ≤
    max 1 (before.ofAlias component aliasName).length
  volumes : ∀ role : VolumeRole, (after.volumesWith (role.labels component)).length ≤
    max 1 (before.volumesWith (role.labels component)).length

variable {h k l : Holdings} {component : String}

theorem NoMore.refl (h : Holdings) (component : String) : h.NoMore h component :=
  ⟨fun _ => .refl _, fun _ => .refl _⟩

theorem NoMore.trans (hk : h.NoMore k component) (kl : k.NoMore l component) : h.NoMore l component :=
  ⟨fun a => (hk.containers a).trans (kl.containers a), fun r => (hk.volumes r).trans (kl.volumes r)⟩

/-- A call that gives nothing to any component may be made. -/
theorem NoMore.keeps (none : ∀ component, k.NoMore h component) : h.Keeps k component where
  others other _ := none other
  containers a := Nat.le_trans ((none component).containers a).length_le (Nat.le_max_right _ _)
  volumes r := Nat.le_trans ((none component).volumes r).length_le (Nat.le_max_right _ _)

theorem keeps_refl (h : Holdings) (component : String) : h.Keeps h component :=
  NoMore.keeps fun _ => .refl _ _

/-- A bound on the containers of an alias holds after a call of any component. -/
theorem Keeps.ofAlias_length_le (keeps : h.Keeps k component) {other aliasName : String} {bound : Nat}
    (hle : (h.ofAlias other aliasName).length ≤ max 1 bound) :
    (k.ofAlias other aliasName).length ≤ max 1 bound := by
  by_cases hother : other = component
  · rw [hother] at hle ⊢
    have hafter := keeps.containers aliasName
    omega
  · exact Nat.le_trans ((keeps.others other hother).containers aliasName).length_le hle

/-- A bound on the volumes of a role holds after a call of any component. -/
theorem Keeps.volumesWith_length_le (keeps : h.Keeps k component) {other : String} {role : VolumeRole}
    {bound : Nat} (hle : (h.volumesWith (role.labels other)).length ≤ max 1 bound) :
    (k.volumesWith (role.labels other)).length ≤ max 1 bound := by
  by_cases hother : other = component
  · rw [hother] at hle ⊢
    have hafter := keeps.volumes role
    omega
  · exact Nat.le_trans ((keeps.others other hother).volumes role).length_le hle

/-- Removing gives nothing to anybody. -/
theorem noMore_removeContainer (h : Holdings) (id component : String) :
    (h.removeContainer id).NoMore h component where
  containers a := by
    rw [ofAlias, containersWith_removeContainer]
    exact List.filter_sublist
  volumes _ := .refl _

/-- A container may be made for an alias that has none. -/
theorem keeps_addContainer {aliasName : String} {r : Running}
    (only : ∀ other a, (Labels.ofContainer other a).selects r.live.labels = true ↔
      other = component ∧ a = aliasName)
    (none : h.ofAlias component aliasName = []) : h.Keeps (h.addContainer r) component where
  others other hother := by
    refine ⟨fun a => ?_, fun _ => .refl _⟩
    rw [ofAlias, containersWith_addContainer, if_neg (fun hsel => hother ((only other a).1 hsel).1),
      List.append_nil]
    exact .refl _
  containers a := by
    rw [ofAlias, containersWith_addContainer, ← ofAlias]
    by_cases ha : a = aliasName
    · rw [ha, none, if_pos ((only component aliasName).2 ⟨rfl, rfl⟩)]
      exact Nat.le_max_left _ _
    · rw [if_neg (fun hsel => ha ((only component a).1 hsel).2), List.append_nil]
      exact Nat.le_max_right _ _
  volumes _ := Nat.le_max_right _ _

/-- A volume may be made for a role that has none. -/
theorem keeps_addVolume {role : VolumeRole} {v : Volume} (hlabels : v.labels = role.labels component)
    (none : h.volumesWith (role.labels component) = []) : h.Keeps (h.addVolume v) component where
  others other hother := by
    refine ⟨fun _ => .refl _, fun r => ?_⟩
    have hsel : ¬ (r.labels other).selects v.labels = true := by
      rw [hlabels, VolumeRole.labels_selects_labels]
      exact fun h => hother h.2
    rw [volumesWith_addVolume, if_neg hsel, List.append_nil]
  containers _ := Nat.le_max_right _ _
  volumes r := by
    rw [volumesWith_addVolume]
    by_cases hr : r = role
    · rw [hr, none, hlabels, if_pos (Labels.selects_self _)]
      exact Nat.le_max_left _ _
    · have hsel : ¬ (r.labels component).selects v.labels = true := by
        rw [hlabels, VolumeRole.labels_selects_labels]
        exact fun h => hr h.1
      rw [if_neg hsel, List.append_nil]
      exact Nat.le_max_right _ _

end Holdings

/-! ## Scripts that abide -/

namespace Script

variable {α β : Type} {engine : Conduct} {component : String}

/-- A script abides where the engine holds `h`: each of its calls, made after others have given its
component nothing, brings about no more than it may, and the script goes on to abide; if it ends with a
value, that value has what is said of it, whatever others do later. -/
def Abides (engine : Conduct) (component : String) (Q : α → Holdings → Prop) :
    Script α → Holdings → Prop
  | .done value, h => ∀ k : Holdings, k.NoMore h component → Q value k
  | .fail _, _ => True
  | .log _ next, h => next.Abides engine component Q h
  | .call request _ next, h => ∀ k : Holdings, k.NoMore h component →
    ∀ answer after, engine k request answer after →
      k.Keeps after component ∧ (next answer).Abides engine component Q after

/-- A script abides wherever it starts. -/
def Careful (engine : Conduct) (component : String) (s : Script α) : Prop :=
  ∀ h, s.Abides engine component (fun _ _ => True) h

variable {Q : α → Holdings → Prop} {R : β → Holdings → Prop} {h k : Holdings}

/-- Others that give the component nothing do not keep a script from abiding. -/
theorem Abides.stable {s : Script α} (hs : s.Abides engine component Q h)
    (none : k.NoMore h component) : s.Abides engine component Q k := by
  induction s with
  | done value => exact fun l hl => hs l (hl.trans none)
  | fail error => trivial
  | log event next ih => exact ih hs
  | call request deadline next ih => exact fun l hl => hs l (hl.trans none)

/-- A script goes on to abide with what is known of the value of the one before it. -/
theorem Abides.bind {s : Script α} {f : α → Script β} (hs : s.Abides engine component Q h)
    (hf : ∀ value k, Q value k → (f value).Abides engine component R k) :
    (s >>= f).Abides engine component R h := by
  induction s generalizing h with
  | done value => exact hf value h (hs h (.refl _ _))
  | fail error => trivial
  | log event next ih => exact ih hs
  | call request deadline next ih =>
    intro k hk answer after meets
    obtain ⟨hkeeps, hnext⟩ := hs k hk answer after meets
    exact ⟨hkeeps, ih answer hnext⟩

theorem Abides.closing {s : Script α} (hs : s.Abides engine component Q h) (message : String) :
    (s.closing message).Abides engine component Q h := by
  induction s generalizing h with
  | done value => exact hs
  | fail error => trivial
  | log event next ih => exact ih hs
  | call request deadline next ih =>
    intro k hk answer after meets
    obtain ⟨hkeeps, hnext⟩ := hs k hk answer after meets
    exact ⟨hkeeps, ih answer hnext⟩

theorem Abides.step {s : Script α} (hs : s.Abides engine component Q h) (message : String) :
    (step message s).Abides engine component Q h := hs.closing message

/-- What every call of a component keeps that it may make, a run of a script that abides keeps. -/
theorem Abides.invariant {P : Holdings → Prop} {s : Script α} {before after : Holdings}
    {trace : List Happening} {verdict : Except PushError α}
    (hs : s.Abides engine component Q before) (run : s.Runs engine before trace verdict after)
    (kept : ∀ {h k : Holdings}, h.Keeps k component → P h → P k) (h : P before) : P after := by
  induction s generalizing before trace with
  | done | fail =>
    obtain ⟨-, -, rfl⟩ := run
    exact h
  | log event next ih =>
    obtain ⟨rest, -, hnext⟩ := run
    exact ih hs hnext h
  | call request deadline next ih =>
    obtain ⟨answer, middle, rest, met, -, hnext⟩ := run
    obtain ⟨hkeeps, habides⟩ := hs before (.refl _ _) answer middle met
    exact ih answer habides hnext (kept hkeeps h)

/-- A script whose calls make and remove nothing abides. -/
theorem careful_of_asks (honest : engine.Honest) {s : Script α}
    (asks : s.Asks fun r => r.alters = false) : s.Careful engine component := by
  induction s with
  | done value => exact fun h k _ => trivial
  | fail error => exact fun h => trivial
  | log event next ih => exact ih asks
  | call request deadline next ih =>
    intro h k hk answer after meets
    have hsame : after = k := by
      rcases honest.effect meets with hsame | ⟨reply, granted⟩
      · exact hsame
      · exact Holdings.eq_of_grants granted asks.1
    rw [hsame]
    exact ⟨Holdings.keeps_refl _ _, ih answer (asks.2 answer) k⟩

theorem careful_note (event : Event) : (note event).Careful engine component :=
  fun _ _ _ => trivial

theorem careful_notes (honest : engine.Honest) (events : List Event) :
    (notes events).Careful engine component :=
  careful_of_asks honest (closed_asks.notes events)

theorem careful_done (value : α) : (done value).Careful engine component := fun _ _ _ => trivial

theorem careful_ofExcept (x : Except PushError α) : (ofExcept x).Careful engine component := by
  cases x with
  | ok value => exact careful_done value
  | error e => exact fun _ => trivial

theorem Careful.bind {s : Script α} {f : α → Script β} (hs : s.Careful engine component)
    (hf : ∀ value, (f value).Careful engine component) : (s >>= f).Careful engine component :=
  fun h => (hs h).bind fun value k _ => hf value k

/-- A call abides if whatever it does may be done, and it ends with what its reply tells. -/
theorem abides_ask {name : String} {deadline : Duration} {request : Request}
    {Q : request.Reply → Holdings → Prop}
    (keeps : ∀ {k answer after}, k.NoMore h component → engine k request answer after →
      k.Keeps after component)
    (tells : ∀ {k reply after l}, k.NoMore h component → engine k request (.reply reply) after →
      l.NoMore after component → Q reply l) :
    (ask name deadline request).Abides engine component Q h := by
  intro k hk answer after meets
  refine ⟨keeps hk meets, ?_⟩
  cases answer with
  | reply value => exact fun l hl => tells hk meets hl
  | refused | expired => trivial

end Script

end DevfilePush
