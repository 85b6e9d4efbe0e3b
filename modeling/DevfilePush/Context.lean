import DevfilePush.Config.Basic
import DevfilePush.Text.Quoted

/-!
# The context of a push

What every part of a push knows: whose push it is, where the component's files are and how to talk to
the engine.
-/

namespace DevfilePush

/-- What stays the same throughout a push. -/
structure Context where
  /-- The component's name. -/
  component : String
  /-- The directory of the component's devfile and environment file. -/
  directory : String
  config : Config
  deriving DecidableEq, Repr, Inhabited

namespace Context

/-- The supervisor's paths as a record of quoted texts. -/
def describeSupervisor (s : Supervisor) : String :=
  "SupervisorConfig \x7b binary_path: " ++ Text.quoted s.binaryPath ++ ", conf_file: " ++
    Text.quoted s.confFile ++ ", mount_path: " ++ Text.quoted s.mountPath ++ ", program: " ++
    Text.quoted s.program ++ " \x7d"

/-- The configuration as a record of its fields. -/
def describeConfig (c : Config) : String :=
  "PushConfig \x7b host_ip: " ++ Text.quoted c.hostIp ++ ", call_timeout_secs: " ++
    toString c.callTimeout.toNat ++ ", exec_timeout_secs: " ++ toString c.execTimeout.toNat ++
    ", show_output: " ++ toString c.showOutput ++ ", supervisor: " ++
    describeSupervisor c.supervisor ++ " \x7d"

/-- The context as a record of its fields; the engine is left out. -/
def describe (ctx : Context) : String :=
  "PushContext \x7b component_name: " ++ Text.quoted ctx.component ++ ", context_dir: " ++
    Text.quoted ctx.directory ++ ", config: " ++ describeConfig ctx.config ++ ", .. \x7d"

end Context

end DevfilePush
