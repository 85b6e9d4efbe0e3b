import DevfilePush.Engine.Conduct
import DevfilePush.Push

/-!
# Pushes one after another

A component is pushed again and again. What the engine holds is all that one push leaves to the next:
each goes by what it finds, whatever became of those before it.

## Main definitions

* `Round`: a push with what happened during it.
* `History`: pushes of one component, one after another.
* `Chronicle`: pushes of any components, one after another.
-/

namespace DevfilePush

/-- A push with what happened during it. -/
structure Round where
  push : Push
  /-- What loading its URLs gives. -/
  listing : UrlListing
  /-- What the engine held before. -/
  before : Holdings
  happenings : List Happening
  verdict : Except PushError PushReport
  /-- What the engine held after. -/
  after : Holdings

/-- Pushes of a component one after another, the latest first, and what the engine holds in the end. They
can end in any way and declare different containers and commands. -/
inductive History (engine : Conduct) (config : ValidConfig) (component : String) (start : Holdings) :
    List Round → Holdings → Prop
  | start : History engine config component start [] start
  | push {earlier : List Round} {round : Round}
      (past : History engine config component start earlier round.before)
      (same : round.push.component = component)
      (run : (round.push.script config round.listing).Runs engine round.before round.happenings
        round.verdict round.after) :
      History engine config component start (round :: earlier) round.after

/-- Pushes of any components one after another, the latest first, and what the engine holds in the
end. -/
inductive Chronicle (engine : Conduct) (config : ValidConfig) (start : Holdings) :
    List Round → Holdings → Prop
  | start : Chronicle engine config start [] start
  | push {earlier : List Round} {round : Round}
      (past : Chronicle engine config start earlier round.before)
      (run : (round.push.script config round.listing).Runs engine round.before round.happenings
        round.verdict round.after) :
      Chronicle engine config start (round :: earlier) round.after

end DevfilePush
